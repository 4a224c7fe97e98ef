import Mathlib
import TrafficMonitor.Decimal.Binary64

-- `pack_unpack_of_valid` and its like are of Batteries, and no narrower module of Mathlib imports them.

namespace TrafficMonitor.Decimal.Binary64

theorem ofBits_toBits (x : Float) : Float.ofBits x.toBits = x := by
  have hbits : (Float.Model.ofBits x.toBits).toBits = x.toModel.toBits :=
    congrArg UInt64.ofBitVec (Float.Model.UnpackedFloat.pack_unpack_of_valid x.toModel.valid)
  have hmodel : Float.Model.ofBits x.toBits = x.toModel := by
    cases hm : Float.Model.ofBits x.toBits
    cases hx : x.toModel
    rw [hm, hx] at hbits
    cases hbits
    rfl
  exact congrArg Float.ofModel hmodel

theorem eq_of_parts_nan {x : Float} (h : parts x = .nan) : x = 0.0 / 0.0 := by
  have hfields : x.toBits.toNat / 2 ^ 52 % 2 ^ 11 = 2047 ∧ x.toBits.toNat % 2 ^ 52 ≠ 0 := by
    rw [parts] at h
    split at h
    case isTrue hexponent =>
      split at h
      case isTrue => cases h
      case isFalse hfraction => exact ⟨hexponent, hfraction⟩
    case isFalse => split at h <;> cases h
  have hexponent : @Float.Model.UnpackedFloat.unpackExponent
      Float.Model.Format.binary64 x.toModel.toBits.toBitVec = -1#11 := by
    rw [Float.Model.UnpackedFloat.unpackExponent_def, ← BitVec.toNat_inj,
      BitVec.extractLsb'_toNat, Nat.shiftRight_eq_div_pow]
    exact hfields.1
  have hmantissa : @Float.Model.UnpackedFloat.unpackMantissa
      Float.Model.Format.binary64 x.toModel.toBits.toBitVec ≠ 0#52 := by
    rw [Float.Model.UnpackedFloat.unpackMantissa_def, Ne, ← BitVec.toNat_inj,
      BitVec.extractLsb'_toNat, Nat.shiftRight_zero]
    exact hfields.2
  have hbits : x.toBits = (0.0 / 0.0 : Float).toBits :=
    congrArg UInt64.ofBitVec (x.toModel.valid.eq_packedNaN hexponent hmantissa)
  rw [← ofBits_toBits x, hbits, ofBits_toBits]

end TrafficMonitor.Decimal.Binary64
