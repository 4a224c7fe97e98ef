import TrafficMonitor.Proofs.Decimal.Bits
import TrafficMonitor.Time.Duration

/-!
Positive binary64 numbers that stay clear of zero: the operations on counts and durations keep a
bound on the last place of the significand, so that none of them underflows.
-/

namespace TrafficMonitor.Decimal.Binary64

open Float.Model UnpackedFloat

inductive Full (k : Int) : UnpackedFloat → Prop
  | infinity : Full k (.infinity .positive)
  | finite {m : Nat} {e : Int} (hpos : 0 < m) (hm : m.log2 = 52) (he : k ≤ e) :
    Full k (.finite .positive m e hpos)

theorem Full.mono {j k : Int} {x : UnpackedFloat} (h : Full k x) (hjk : j ≤ k) : Full j x := by
  cases h with
  | infinity => exact .infinity
  | finite hpos hm he => exact .finite hpos hm (Int.le_trans hjk he)

section Rounding

theorem log2_mul_two_pow {m : Nat} (hm : m ≠ 0) (s : Nat) : (m * 2 ^ s).log2 = m.log2 + s := by
  have hpos : 0 < 2 ^ s := Nat.two_pow_pos s
  rw [Nat.log2_eq_iff (Nat.mul_ne_zero hm (by omega))]
  constructor
  · rw [Nat.pow_add]
    exact Nat.mul_le_mul_right _ (Nat.log2_self_le hm)
  · rw [Nat.add_right_comm, Nat.pow_add]
    exact Nat.mul_lt_mul_of_pos_right Nat.lt_log2_self hpos

theorem log2_div_two_pow {m s : Nat} (hs : s ≤ m.log2) (hm : m ≠ 0) :
    (m / 2 ^ s).log2 = m.log2 - s := by
  have hpos : 0 < 2 ^ s := Nat.two_pow_pos s
  have hle : 2 ^ (m.log2 - s) ≤ m / 2 ^ s := by
    rw [Nat.le_div_iff_mul_le hpos, ← Nat.pow_add, Nat.sub_add_cancel hs]
    exact Nat.log2_self_le hm
  have hlt : m / 2 ^ s < 2 ^ (m.log2 - s + 1) := by
    rw [Nat.div_lt_iff_lt_mul hpos, ← Nat.pow_add, Nat.add_right_comm, Nat.sub_add_cancel hs]
    exact Nat.lt_log2_self
  have hne : m / 2 ^ s ≠ 0 := by
    have := Nat.two_pow_pos (m.log2 - s)
    omega
  exact (Nat.log2_eq_iff hne).2 ⟨hle, hlt⟩

theorem mantissa_shiftRight (x : ExtendedMantissa) (s : Nat) :
    (x >>> s).mantissa = x.mantissa / 2 ^ s := by
  induction s with
  | zero => exact (Nat.div_one _).symm
  | succ s ih =>
    rw [Nat.pow_succ, ← Nat.div_div_eq_div_mul, ← ih]
    rfl

theorem mantissa_ofMantissaAndAccuracy (m : Nat) (accuracy : Accuracy) :
    (ExtendedMantissa.ofMantissaAndAccuracy m accuracy).mantissa = m := by
  cases accuracy with
  | exact => rfl
  | inexact o => cases o <;> rfl

theorem le_roundedMantissa (x : ExtendedMantissa) : x.mantissa ≤ x.roundedMantissa := by
  rw [ExtendedMantissa.roundedMantissa]
  cases x.accuracy with
  | exact => exact Nat.le_refl _
  | inexact o =>
    cases o with
    | lt => exact Nat.le_refl _
    | eq => exact Nat.le_add_right _ _
    | gt => exact Nat.le_succ _

theorem ne_zero_of_le_log2 {m : Nat} (hm : 52 ≤ m.log2) : m ≠ 0 := by
  rintro rfl
  rw [Nat.log2_zero] at hm
  omega

theorem targetExponent_eq {m : Nat} {e : Int} (he : -1074 ≤ e + (m.log2 - 52)) :
    Format.binary64.targetExponent (totalExponent m e) = e + (m.log2 - 52) := by
  have htarget (t : Int) : Format.binary64.targetExponent t = max (t - 53) (-1074) := rfl
  rw [htarget, totalExponent]
  omega

theorem shiftToTargetExponent_full {m : Nat} {e : Int} (accuracy : Accuracy) (hm : 52 ≤ m.log2)
    (he : -1074 ≤ e + (m.log2 - 52)) :
    let shifted := shiftToTargetExponent Format.binary64 m e accuracy
    shifted.1.mantissa.log2 = 52 ∧ shifted.2 = e + (m.log2 - 52) := by
  have hshift : (e + ((m.log2 : Int) - 52) - e).toNat = m.log2 - 52 := by omega
  simp only [shiftToTargetExponent, shiftToExponent, targetExponent_eq he, hshift,
    mantissa_shiftRight, mantissa_ofMantissaAndAccuracy]
  constructor
  · rw [log2_div_two_pow (Nat.sub_le _ _) (ne_zero_of_le_log2 hm)]
    omega
  · omega

theorem full_roundWithAccuracy {m : Nat} {e k : Int} (accuracy : Accuracy) (hm : 52 ≤ m.log2)
    (hk : -1074 ≤ k) (he : k ≤ e + (m.log2 - 52)) :
    Full k (roundWithAccuracy Format.binary64 .positive m e accuracy) := by
  obtain ⟨hm₁, he₁⟩ := shiftToTargetExponent_full accuracy hm (Int.le_trans hk he)
  rw [roundWithAccuracy]
  cases h₁ : shiftToTargetExponent Format.binary64 m e accuracy with
  | mk x₁ e₁ =>
    rw [h₁] at hm₁ he₁
    -- Rounding can carry into a further digit, which the second shift cuts again.
    have hround : 52 ≤ x₁.roundedMantissa.log2 := by
      have hle := le_roundedMantissa x₁
      have hne : x₁.mantissa ≠ 0 := ne_zero_of_le_log2 (Nat.le_of_eq hm₁.symm)
      rw [Nat.le_log2 (by omega)]
      exact Nat.le_trans ((Nat.le_log2 hne).1 (Nat.le_of_eq hm₁.symm)) hle
    have he₂ : k ≤ e₁ + (x₁.roundedMantissa.log2 - 52) := by
      simp only at he₁
      omega
    obtain ⟨hm₂, h₂⟩ := shiftToTargetExponent_full .exact hround (Int.le_trans hk he₂)
    simp only
    rw [dif_neg (ne_zero_of_le_log2 (Nat.le_of_eq hm₂.symm))]
    exact .finite _ hm₂ (by omega)

theorem full_round {m : Nat} {e k : Int} (hm : m ≠ 0) (hk : -1074 ≤ k)
    (he : k ≤ e + (m.log2 - 52)) : Full k (UnpackedFloat.round Format.binary64 .positive m e) := by
  rw [UnpackedFloat.round, targetExponent_eq (Int.le_trans hk he)]
  simp only [decreaseExponent, Nat.shiftLeft_eq]
  have hlog := log2_mul_two_pow hm (e - (e + ((m.log2 : Int) - 52))).toNat
  exact full_roundWithAccuracy .exact (by omega) hk (by omega)

end Rounding

section Operations

variable {j k : Int} {x y : UnpackedFloat} {m n : Nat}

theorem bounds_of_log2 (hpos : 0 < m) (hm : m.log2 = 52) : 2 ^ 52 ≤ m ∧ m < 2 ^ 53 :=
  (Nat.log2_eq_iff (Nat.ne_of_gt hpos)).1 hm

theorem log2_append_one (mantissa : BitVec 52) : (1#1 ++ mantissa).toNat.log2 = 52 := by
  have hlt := mantissa.isLt
  have hval : (1#1 ++ mantissa).toNat = 2 ^ 52 + mantissa.toNat := by
    rw [BitVec.toNat_append, ← Nat.shiftLeft_add_eq_or_of_lt hlt]
    rfl
  rw [hval, Nat.log2_eq_iff (by omega)]
  omega

theorem full_unpack_packComponents {biased : Nat} (hpos : 0 < biased) (hlt : biased < 2047)
    (hk : k ≤ biased - 1075) (mantissa : BitVec 52) :
    Full k (UnpackedFloat.unpack Format.binary64
      (packComponents Format.binary64 .positive (BitVec.ofNat 11 biased) mantissa)) := by
  have hexponent : (BitVec.ofNat 11 biased).toNat = biased := by
    rw [BitVec.toNat_ofNat]
    exact Nat.mod_eq_of_lt (by omega)
  have hall : BitVec.ofNat 11 biased ≠ -1#11 := by
    rw [Ne, ← BitVec.toNat_inj, hexponent]
    exact Nat.ne_of_lt hlt
  have hnone : BitVec.ofNat 11 biased ≠ 0#11 := by
    rw [Ne, ← BitVec.toNat_inj, hexponent]
    exact Nat.ne_of_gt hpos
  rw [UnpackedFloat.unpack]
  simp only [unpackExponent_packComponents, unpackMantissa_packComponents,
    unpackSign_packComponents]
  rw [if_neg hall, if_neg hnone]
  refine .finite _ (log2_append_one mantissa) ?_
  rw [hexponent]
  exact hk

theorem Full.unpack_pack (h : Full k x) (hk : -1074 ≤ k) :
    Full k (UnpackedFloat.unpack Format.binary64 (UnpackedFloat.pack Format.binary64 x)) := by
  have hinfinity : UnpackedFloat.unpack Format.binary64 (packedInfinity Format.binary64 .positive) =
      .infinity .positive := by rfl
  cases h with
  | infinity =>
    rw [UnpackedFloat.pack, hinfinity]
    exact .infinity
  | @finite m e hpos hm he =>
    rw [UnpackedFloat.pack]
    -- A number too large for the format becomes infinite.
    split
    case isTrue =>
      rw [hinfinity]
      exact .infinity
    case isFalse hbiased =>
      rw [if_pos (by rw [hm]; rfl)]
      have hover : ¬2 ^ 11 ≤ (e + 1023 + 52).toNat + 1 := hbiased
      have hpos' : 0 < (e + 1023 + 52).toNat := by omega
      have hlt : (e + 1023 + 52).toNat < 2047 := by omega
      exact full_unpack_packComponents hpos' hlt (by omega) _

theorem normalize_natCast (hn : n ≠ 0) (e : Int) (sign : Sign) :
    UnpackedFloat.normalize Format.binary64 n e sign =
      UnpackedFloat.round Format.binary64 .positive n e := by
  have hcompare : compare (n : Int) 0 = .gt := by
    rw [Int.compare_eq_gt]
    omega
  rw [UnpackedFloat.normalize, hcompare]
  rfl

theorem full_ofNat (hn : n ≠ 0) (hk : k ≤ n.log2 - 52) (hmin : -1074 ≤ k) :
    Full k (UnpackedFloat.ofNat Format.binary64 n) := by
  rw [UnpackedFloat.ofNat, UnpackedFloat.ofInt, normalize_natCast hn]
  exact full_round hn hmin (by omega)

theorem Full.mul (hx : Full j x) (hy : Full k y) (hmin : -1074 ≤ j + k + 52) :
    Full (j + k + 52) (UnpackedFloat.mul Format.binary64 x y) := by
  cases hx with
  | infinity => cases hy <;> exact .infinity
  | @finite m e hpos hm he =>
    cases hy with
    | infinity => exact .infinity
    | @finite n f hpos' hn hf =>
      have hle : 2 ^ 52 * 2 ^ 52 ≤ m * n :=
        Nat.mul_le_mul (bounds_of_log2 hpos hm).1 (bounds_of_log2 hpos' hn).1
      have hlog : 104 ≤ (m * n).log2 := by
        rw [Nat.le_log2 (Nat.mul_ne_zero (by omega) (by omega))]
        exact hle
      exact full_roundWithAccuracy .exact (by omega) hmin (by omega)

theorem Full.div {f : Int} (hx : Full (k + f + 53) x) (hpos : 0 < n) (hn : n.log2 = 52)
    (hmin : -1074 ≤ k) :
    Full k (UnpackedFloat.div Format.binary64 x (.finite .positive n f hpos)) := by
  cases hx with
  | infinity => exact .infinity
  | @finite m e hpos' hm he =>
    have htotal : totalExponent m e - totalExponent n f = e - f := by
      rw [totalExponent, totalExponent, hm, hn]
      omega
    have htarget : Format.binary64.targetExponent (e - f) = max (e - f - 53) (-1074) := rfl
    have hmin' : min (e - f) (max (e - f - 53) (-1074)) = e - f - 53 := by omega
    have hshift : (e - f - (e - f - 53)).toNat = 53 := by omega
    have hle : 2 ^ 52 ≤ m * 2 ^ 53 / n := by
      have hm' := (bounds_of_log2 hpos' hm).1
      have hn' := (bounds_of_log2 hpos hn).2
      rw [Nat.le_div_iff_mul_le hpos]
      omega
    have hlog : 52 ≤ (m * 2 ^ 53 / n).log2 := by
      rw [Nat.le_log2 (by omega)]
      exact hle
    simp only [UnpackedFloat.div, divCore, htotal, htarget, hmin', hshift, Nat.shiftLeft_eq]
    exact full_roundWithAccuracy _ hlog hmin (by omega)

theorem Full.zero_div (h : Full k x) :
    UnpackedFloat.div Format.binary64 (.zero .positive) x = .zero .positive := by
  cases h <;> rfl

theorem Full.zero_add (h : Full k x) :
    UnpackedFloat.add Format.binary64 (.zero .positive) x = x := by
  cases h <;> rfl

theorem Full.add_zero (h : Full k x) :
    UnpackedFloat.add Format.binary64 x (.zero .positive) = x := by
  cases h <;> rfl

theorem Full.add (hx : Full k x) (hy : Full k y) (hmin : -1074 ≤ k) :
    Full k (UnpackedFloat.add Format.binary64 x y) := by
  cases hx with
  | infinity => cases hy <;> exact .infinity
  | @finite m e hpos hm he =>
    cases hy with
    | infinity => exact .infinity
    | @finite n f hpos' hn hf =>
      generalize hg : min e f = g
      have hlog := log2_mul_two_pow (Nat.ne_of_gt hpos) (e - g).toNat
      have hle : m * 2 ^ (e - g).toNat ≤ m * 2 ^ (e - g).toNat + n * 2 ^ (f - g).toNat :=
        Nat.le_add_right _ _
      have hne : m * 2 ^ (e - g).toNat ≠ 0 :=
        Nat.mul_ne_zero (Nat.ne_of_gt hpos) (Nat.ne_of_gt (Nat.two_pow_pos _))
      have hlog' : m.log2 ≤ (m * 2 ^ (e - g).toNat + n * 2 ^ (f - g).toNat).log2 := by
        rw [Nat.le_log2 (by omega)]
        exact Nat.le_trans ((Nat.le_log2 hne).1 (by omega)) hle
      simp only [UnpackedFloat.add, hg, decreaseExponent, Nat.shiftLeft_eq, Sign.apply]
      rw [← Int.natCast_add, normalize_natCast (by omega)]
      exact full_round (by omega) hmin (by omega)

end Operations

section Floats

theorem full_ofCount {n : Nat} (hn : n ≠ 0) (hlt : n < 2 ^ 64) : Full (-52) (ofCount n).toModel.unpack := by
  have hword : n.toUInt64.toNat = n := UInt64.toNat_ofNat_of_lt hlt
  have hfull := full_ofNat (n := n.toUInt64.toNat) (k := -52) (by omega) (by omega) (by decide)
  exact hfull.unpack_pack (by decide)

theorem unpack_ofCount_zero : (ofCount 0).toModel.unpack = .zero .positive := by rfl

theorem unpack_billion :
    (1e9 : Float).toModel.unpack = .finite .positive (10 ^ 9 * 2 ^ 23) (-23) (by decide) := by rfl

theorem full_seconds {d : Time.Duration} (hpos : 0 < d.nanoseconds) (hlt : d.wholeSeconds < 2 ^ 64) :
    Full (-82) d.seconds.toModel.unpack := by
  have hsub : d.subsecond < 2 ^ 64 := by
    have : d.subsecond < 10 ^ 9 := Nat.mod_lt _ (by decide)
    omega
  have hsum : d.nanoseconds = 10 ^ 9 * d.wholeSeconds + d.subsecond := (Nat.div_add_mod _ _).symm
  have hbillion : (10 ^ 9 * 2 ^ 23).log2 = 52 := by decide +kernel
  have hwhole (h : d.wholeSeconds ≠ 0) := (full_ofCount h hlt).mono (j := -82) (by decide)
  have hfraction (h : d.subsecond ≠ 0) :
      Full (-82) (ofCount d.subsecond / 1e9).toModel.unpack := by
    have hfull : Full (-82 + -23 + 53) (ofCount d.subsecond).toModel.unpack := full_ofCount h hsub
    have hdiv := hfull.div (by decide) hbillion (by decide)
    rw [← unpack_billion] at hdiv
    exact hdiv.unpack_pack (by decide)
  have hadd : d.seconds.toModel = .pack (UnpackedFloat.add Format.binary64
    (ofCount d.wholeSeconds).toModel.unpack (ofCount d.subsecond / 1e9).toModel.unpack) := rfl
  have hzero : (ofCount 0 / 1e9).toModel.unpack = .zero .positive := by rfl
  rw [hadd]
  apply Full.unpack_pack _ (by decide)
  by_cases hw : d.wholeSeconds = 0
  · have hf := hfraction (by omega)
    rw [hw, unpack_ofCount_zero, hf.zero_add]
    exact hf
  · by_cases hs : d.subsecond = 0
    · rw [hs, hzero, (hwhole hw).add_zero]
      exact hwhole hw
    · exact (hwhole hw).add (hfraction hs) (by decide)

theorem zero_rate {n : Nat} {d : Time.Duration} (hn : n ≠ 0) (hn' : n < 2 ^ 64)
    (hpos : 0 < d.nanoseconds) (hlt : d.wholeSeconds < 2 ^ 64) :
    ofCount 0 / (ofCount n * d.seconds) = 0.0 := by
  have hfull : Full (-82) (ofCount n * d.seconds).toModel.unpack :=
    ((full_ofCount hn hn').mul (full_seconds hpos hlt) (by decide)).unpack_pack (by decide)
  have hdiv : ofCount 0 / (ofCount n * d.seconds) = .ofModel (.pack (UnpackedFloat.div
    Format.binary64 (ofCount 0).toModel.unpack (ofCount n * d.seconds).toModel.unpack)) := rfl
  rw [hdiv, unpack_ofCount_zero, hfull.zero_div]
  decide +kernel

end Floats

end TrafficMonitor.Decimal.Binary64
