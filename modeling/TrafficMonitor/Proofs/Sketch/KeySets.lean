import Mathlib.Data.Finset.Lattice.Fold
import Mathlib.Data.List.Dedup
import Mathlib.Order.Lattice.Nat
import TrafficMonitor.Proofs.Sketch.Registers
import TrafficMonitor.Sketch.BitLength

namespace TrafficMonitor.Sketch

theorem toNat_clz {w : Nat} (x : BitVec w) : x.clz.toNat = w - bitLength x.toNat := by
  have hw : (w : BitVec w).toNat = w := Nat.mod_eq_of_lt Nat.lt_two_pow_self
  by_cases hx : x = 0
  · rw [BitVec.clz_eq_iff_eq_zero.2 hx, hw, hx]
    rfl
  · have hlt : x.clz.toNat < w := by
      have h := BitVec.lt_def.1 (BitVec.clz_lt_iff_ne_zero.2 hx)
      rwa [hw] at h
    have hupper := bitLength_le_iff.2 x.toNat_lt_two_pow_sub_clz
    have hlower : ¬bitLength x.toNat ≤ w - 1 - x.clz.toNat := by
      rw [bitLength_le_iff]
      exact Nat.not_lt_of_le (BitVec.two_pow_sub_clz_le_toNat_of_ne_zero (by omega) hx)
    omega

theorem bitLength_mul_two_pow {n : Nat} (hn : n ≠ 0) (k : Nat) :
    bitLength (n * 2 ^ k) = bitLength n + k := by
  apply eq_of_forall_ge_iff
  intro m
  rw [bitLength_le_iff]
  by_cases hk : k ≤ m
  · have hm : m = m - k + k := by omega
    rw [hm, Nat.pow_add, Nat.mul_lt_mul_right (Nat.two_pow_pos k), ← bitLength_le_iff]
    omega
  · have hlt := Nat.pow_lt_pow_right (show 1 < 2 by decide) (Nat.lt_of_not_le hk)
    have hle := Nat.le_mul_of_pos_left (2 ^ k) (Nat.pos_of_ne_zero hn)
    omega

namespace HyperLogLog

variable {p : Nat} {h : UInt64}

theorem register_eq_toNat (hp : 0 < p) (hword : p ≤ 64) :
    register p h = (h.toBitVec.extractLsb' (64 - p) p).toNat := by
  have hshift : (64 - p).toUInt64.toNat % 64 = 64 - p := by
    rw [Nat.toUInt64, UInt64.toNat_ofNat']
    omega
  have htop : h.toNat >>> (64 - p) < 2 ^ p := by
    rw [Nat.shiftRight_eq_div_pow]
    apply Nat.div_lt_of_lt_mul
    rw [← Nat.pow_add, Nat.sub_add_cancel hword]
    exact h.toNat_lt
  rw [register, UInt64.toNat_shiftRight, hshift, BitVec.extractLsb'_toNat]
  exact (Nat.mod_eq_of_lt htop).symm

theorem toNat_shiftLeft_leading (hword : p < 64) :
    (h <<< p.toUInt64).toNat = h.toNat % 2 ^ (64 - p) * 2 ^ p := by
  have hshift : p.toUInt64.toNat % 64 = p := by
    rw [Nat.toUInt64, UInt64.toNat_ofNat']
    omega
  have hpow : 2 ^ 64 = 2 ^ (64 - p) * 2 ^ p := by
    rw [← Nat.pow_add]
    congr 1
    omega
  rw [UInt64.toNat_shiftLeft, hshift, Nat.shiftLeft_eq, hpow, Nat.mul_mod_mul_right]

theorem rank_eq_clz (hp : 0 < p) (hword : p < 64) :
    rank p h = min (1 + (h.toBitVec.setWidth (64 - p)).clz.toNat) (65 - p) := by
  have hrest : (h <<< p.toUInt64).toBitVec.toNat = h.toNat % 2 ^ (64 - p) * 2 ^ p :=
    toNat_shiftLeft_leading hword
  have hlow : (h.toBitVec.setWidth (64 - p)).toNat = h.toNat % 2 ^ (64 - p) := BitVec.toNat_setWidth ..
  have hnarrow (n : Nat) : (64 - n + 1).toUInt8.toNat = 64 - n + 1 := by
    rw [Nat.toUInt8, UInt8.toNat_ofNat']
    omega
  simp only [rank, toNat_clz, hrest, hlow, hnarrow]
  by_cases hz : h.toNat % 2 ^ (64 - p) = 0
  · rw [hz, Nat.zero_mul]
    have hb : bitLength 0 = 0 := rfl
    omega
  · rw [bitLength_mul_two_pow hz]
    omega

section Run

variable {κ : Type}

theorem getElem?_empty (precision : Nat) (hash : κ → UInt64) (j : Nat) :
    (empty precision hash).registers[j]? =
      if j < 2 ^ (empty precision hash).precision then some 0 else none := Array.getElem?_replicate

theorem foldl_add_frame (s : HyperLogLog κ) (keys : List κ) :
    (keys.foldl add s).precision = s.precision ∧ (keys.foldl add s).hash = s.hash ∧
      (keys.foldl add s).registers.size = s.registers.size := by
  induction keys generalizing s with
  | nil => exact ⟨rfl, rfl, rfl⟩
  | cons key keys ih =>
    obtain ⟨hprecision, hhash, hsize⟩ := ih (s.add key)
    exact ⟨hprecision, hhash, hsize.trans Array.size_modify⟩

variable [DecidableEq κ]

def greatestRank (p : Nat) (hash : κ → UInt64) (keys : Finset κ) (j : Nat) : Nat :=
  (keys.filter fun key => register p (hash key) = j).sup fun key => rank p (hash key)

theorem greatestRank_insert (p : Nat) (hash : κ → UInt64) (key : κ) (keys : Finset κ) (j : Nat) :
    greatestRank p hash (insert key keys) j =
      if register p (hash key) = j then max (rank p (hash key)) (greatestRank p hash keys j)
      else greatestRank p hash keys j := by
  rw [greatestRank, Finset.filter_insert]
  split
  · exact Finset.sup_insert
  · rfl

theorem getElem?_foldl_add (s : HyperLogLog κ) (keys : List κ) (j : Nat) :
    (keys.foldl add s).registers[j]? =
      s.registers[j]?.map (max · (greatestRank s.precision s.hash keys.toFinset j)) := by
  induction keys generalizing s with
  | nil =>
    have hnone : greatestRank s.precision s.hash ∅ j = 0 := rfl
    simp [hnone]
  | cons key keys ih =>
    have hprecision : (s.add key).precision = s.precision := rfl
    have hhash : (s.add key).hash = s.hash := rfl
    rw [List.foldl_cons, ih, getElem?_add, hprecision, hhash, List.toFinset_cons, greatestRank_insert]
    split
    · simp only [Option.map_map, Function.comp_def, Nat.max_assoc]
    · rfl

theorem foldl_add_toFinset (s : HyperLogLog κ) {keys keys' : List κ}
    (hk : keys'.toFinset = keys.toFinset) : keys'.foldl add s = keys.foldl add s := by
  have hregisters : (keys'.foldl add s).registers = (keys.foldl add s).registers := by
    apply Array.ext_getElem?
    intro j
    rw [getElem?_foldl_add, getElem?_foldl_add, hk]
  obtain ⟨hprecision, hhash, _⟩ := foldl_add_frame s keys
  obtain ⟨hprecision', hhash', _⟩ := foldl_add_frame s keys'
  cases h : keys.foldl add s
  cases h' : keys'.foldl add s
  simp_all

theorem add_foldl_add_of_mem (s : HyperLogLog κ) {keys : List κ} {key : κ} (hk : key ∈ keys) :
    (keys.foldl add s).add key = keys.foldl add s := by
  have hagain : (keys ++ [key]).toFinset = keys.toFinset := by
    rw [List.toFinset_append, Finset.union_eq_left]
    intro other ho
    rw [List.mem_toFinset, List.mem_singleton] at ho
    rw [ho, List.mem_toFinset]
    exact hk
  calc (keys.foldl add s).add key
    _ = (keys ++ [key]).foldl add s := by rw [List.foldl_append, List.foldl_cons, List.foldl_nil]
    _ = keys.foldl add s := foldl_add_toFinset s hagain

theorem registers_eq_greatest_ranks (precision : Nat) (hash : κ → UInt64) (keys : List κ) :
    let p := max 4 (min precision 18)
    let leading (key : κ) := ((hash key).toBitVec.extractLsb' (64 - p) p).toNat
    let zeros (key : κ) := ((hash key).toBitVec.setWidth (64 - p)).clz.toNat
    let s := keys.foldl add (empty precision hash)
    s.registers.size = 2 ^ p ∧
    (∀ j < 2 ^ p, s.registers[j]? =
      some ((keys.toFinset.filter fun key => leading key = j).sup fun key =>
        min (1 + zeros key) (65 - p))) ∧
    (∀ key, register s.precision (hash key) < s.registers.size) ∧
    (∀ r ∈ s.registers, r ≤ 65 - p) ∧
    (∀ key ∈ keys, s.add key = s ∧ (s.add key).count = s.count) ∧
    ∀ keys' : List κ, keys'.toFinset = keys.toFinset →
      keys'.foldl add (empty precision hash) = s ∧
      (keys'.foldl add (empty precision hash)).count = s.count := by
  intro p leading zeros s
  obtain ⟨hprecision, _, hsize⟩ := foldl_add_frame (empty precision hash) keys
  have hp : (empty precision hash).precision = p := rfl
  have hlow : 0 < p := by omega
  have hhigh : p < 64 := by omega
  have hlength : s.registers.size = 2 ^ p := hsize.trans Array.size_replicate
  have hregister (key : κ) : register p (hash key) = leading key := register_eq_toNat hlow hhigh.le
  have hrank (key : κ) : rank p (hash key) = min (1 + zeros key) (65 - p) := rank_eq_clz hlow hhigh
  have hget (j : Nat) (hj : j < 2 ^ p) : s.registers[j]? = some (greatestRank p hash keys.toFinset j) := by
    rw [getElem?_foldl_add, getElem?_empty, hp, if_pos hj, Option.map_some, Nat.zero_max]
    rfl
  refine ⟨hlength, ?_, ?_, ?_, ?_, ?_⟩
  · intro j hj
    rw [hget j hj, greatestRank]
    simp only [hregister, hrank]
  · intro key
    rw [hprecision, hp, hregister, hlength]
    exact BitVec.isLt _
  · intro r hr
    obtain ⟨j, hj, hreg⟩ := Array.mem_iff_getElem.1 hr
    have hsome := (Array.getElem?_eq_getElem hj).symm.trans (hget j (hlength ▸ hj))
    rw [hreg, Option.some_inj] at hsome
    rw [hsome]
    apply Finset.sup_le
    intro key _
    rw [hrank]
    exact Nat.min_le_right _ _
  · intro key hk
    have hsame := add_foldl_add_of_mem (empty precision hash) hk
    exact ⟨hsame, congrArg count hsame⟩
  · intro keys' hk
    have hsame := foldl_add_toFinset (empty precision hash) hk
    exact ⟨hsame, congrArg count hsame⟩

end Run

end HyperLogLog

end TrafficMonitor.Sketch
