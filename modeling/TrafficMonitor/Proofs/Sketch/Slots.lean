import Mathlib.Data.Nat.Basic
import Mathlib.Order.Basic
import Mathlib.Tactic.Ring
import TrafficMonitor.Sketch.Scale

namespace TrafficMonitor.Sketch

open Text

namespace Scale

variable {s : Scale} {v w : Nat}

theorem limit_of_create {limit digits : Nat} (h : create limit digits = .ok s) : s.limit = limit := by
  rw [create] at h
  split at h
  · split at h
    · cases h
      rfl
    · cases h
  · cases h

theorem magnitude_pos (s : Scale) : 0 < s.magnitude := by
  rw [Nat.pos_iff_ne_zero]
  intro h
  have hlt := bitLength_le_iff.1 (Nat.le_of_eq h)
  have hpos := Nat.pow_pos (n := s.digits) (show 0 < 10 by decide)
  omega

theorem lt_of_bucketOf (s : Scale) (v : Nat) : v < 2 ^ (s.magnitude + s.bucketOf v) := by
  apply bitLength_le_iff.1
  rw [bucketOf]
  omega

theorem le_of_bucketOf_pos (h : 0 < s.bucketOf v) : 2 ^ (s.magnitude + s.bucketOf v - 1) ≤ v := by
  by_contra hlt
  have hb := bitLength_le_iff.2 (Nat.lt_of_not_le hlt)
  rw [bucketOf] at h hb
  omega

theorem bucketOf_eq {b : Nat} (hlt : v < 2 ^ (s.magnitude + b))
    (hle : 0 < b → 2 ^ (s.magnitude + b - 1) ≤ v) : s.bucketOf v = b := by
  have hupper := bitLength_le_iff.2 hlt
  have hlower : 0 < b → s.magnitude + b ≤ bitLength v := by
    intro hb
    by_contra hn
    have hv := bitLength_le_iff.1 (show bitLength v ≤ s.magnitude + b - 1 by omega)
    exact absurd (hle hb) (Nat.not_le_of_lt hv)
  rw [bucketOf]
  omega

theorem bucketOf_zero (s : Scale) : s.bucketOf 0 = 0 := by
  rw [bucketOf, bitLength, if_pos rfl, Nat.max_eq_right (Nat.zero_le _), Nat.sub_self]

theorem lowest_le (s : Scale) (v : Nat) : s.lowest v ≤ v := Nat.div_mul_le_self v _

theorem lt_lowest_add (s : Scale) (v : Nat) : v < s.lowest v + 2 ^ s.bucketOf v := by
  have h := Nat.lt_div_mul_add (a := v) (Nat.two_pow_pos (s.bucketOf v))
  exact h

theorem two_mul_half (s : Scale) : 2 * s.half = 2 ^ s.magnitude := by
  rw [half, ← Nat.pow_succ', Nat.succ_eq_add_one, Nat.sub_add_cancel s.magnitude_pos]

theorem half_mul_two_pow (s : Scale) (b : Nat) : s.half * 2 ^ b = 2 ^ (s.magnitude + b - 1) := by
  have hm := s.magnitude_pos
  rw [half, ← Nat.pow_add]
  congr 1
  omega

theorem div_lt_two_mul_half (s : Scale) (v : Nat) : v / 2 ^ s.bucketOf v < 2 * s.half := by
  have hv := s.lt_of_bucketOf v
  rw [Nat.pow_add, Nat.mul_comm] at hv
  rw [two_mul_half]
  exact Nat.div_lt_of_lt_mul hv

theorem half_le_div (h : 0 < s.bucketOf v) : s.half ≤ v / 2 ^ s.bucketOf v := by
  rw [Nat.le_div_iff_mul_le (Nat.two_pow_pos _), half_mul_two_pow]
  exact le_of_bucketOf_pos h

theorem lowest_add_le (s : Scale) (v : Nat) :
    s.lowest v + 2 ^ s.bucketOf v ≤ 2 ^ (s.magnitude + s.bucketOf v) := by
  have hq := s.div_lt_two_mul_half v
  rw [two_mul_half] at hq
  calc s.lowest v + 2 ^ s.bucketOf v
    _ = (v / 2 ^ s.bucketOf v + 1) * 2 ^ s.bucketOf v := (Nat.succ_mul _ _).symm
    _ ≤ 2 ^ s.magnitude * 2 ^ s.bucketOf v := Nat.mul_le_mul_right _ hq
    _ = 2 ^ (s.magnitude + s.bucketOf v) := (Nat.pow_add _ _ _).symm

theorem le_lowest_of_bucketOf_pos (h : 0 < s.bucketOf v) :
    2 ^ (s.magnitude + s.bucketOf v - 1) ≤ s.lowest v := by
  rw [← half_mul_two_pow]
  exact Nat.mul_le_mul_right _ (half_le_div h)

theorem slot_eq (hl : s.lowest v ≤ w) (hw : w < s.lowest v + 2 ^ s.bucketOf v) :
    s.bucketOf w = s.bucketOf v ∧ s.lowest w = s.lowest v := by
  have hb : s.bucketOf w = s.bucketOf v := by
    apply bucketOf_eq (hw.trans_le (s.lowest_add_le v))
    intro h
    exact (le_lowest_of_bucketOf_pos h).trans hl
  refine ⟨hb, ?_⟩
  have hq : w / 2 ^ s.bucketOf v = v / 2 ^ s.bucketOf v := by
    apply Nat.div_eq_of_lt_le hl
    rw [Nat.succ_mul]
    exact hw
  rw [lowest, hb, hq]
  rfl

theorem lowest_lowest (s : Scale) (v : Nat) : s.lowest (s.lowest v) = s.lowest v :=
  (slot_eq (Nat.le_refl _) (Nat.lt_add_of_pos_right (Nat.two_pow_pos _))).2

theorem lowest_mono (h : v ≤ w) : s.lowest v ≤ s.lowest w := by
  by_contra hlt
  -- then the lower value lies in the slot of the greater one
  have hslot := slot_eq ((Nat.le_of_not_le hlt).trans (s.lowest_le v)) (h.trans_lt (s.lt_lowest_add w))
  exact hlt (Nat.le_of_eq hslot.2)

theorem highest_of_ne (h : v ≠ Numeral.maxWord) :
    s.highest v = min (s.lowest v + 2 ^ s.bucketOf v) Numeral.maxWord - 1 := if_neg h

theorem lowest_le_highest (hv : v ≤ Numeral.maxWord) : s.lowest v ≤ s.highest v := by
  have hl := s.lowest_le v
  by_cases h : v = Numeral.maxWord
  · rw [highest, if_pos h]
    exact hl
  · have hpos := Nat.two_pow_pos (s.bucketOf v)
    rw [highest_of_ne h]
    omega

theorem highest_lt (s : Scale) (v : Nat) : s.highest v < s.lowest v + 2 ^ s.bucketOf v := by
  have hl := s.lt_lowest_add v
  by_cases h : v = Numeral.maxWord
  · rw [highest, if_pos h]
    exact hl
  · rw [highest_of_ne h]
    omega

theorem highest_le (hv : v ≤ Numeral.maxWord) : s.highest v ≤ Numeral.maxWord := by
  by_cases h : v = Numeral.maxWord
  · rw [highest, if_pos h]
    exact hv
  · rw [highest_of_ne h]
    omega

theorem highest_highest (hv : v ≤ Numeral.maxWord) : s.highest (s.highest v) = s.highest v := by
  by_cases h : v = Numeral.maxWord
  · have he : s.highest v = v := if_pos h
    rw [he, he]
  · have hne : s.highest v ≠ Numeral.maxWord := by
      rw [highest_of_ne h]
      simp only [Numeral.maxWord]
      omega
    obtain ⟨hb, hl⟩ := slot_eq (lowest_le_highest hv) (s.highest_lt v)
    rw [highest_of_ne hne, hb, hl, highest_of_ne h]

theorem highest_mono (h : v ≤ w) (hw : w ≤ Numeral.maxWord) : s.highest v ≤ s.highest w := by
  by_cases hm : w = Numeral.maxWord
  · have he : s.highest w = w := if_pos hm
    rw [he, hm]
    exact highest_le (h.trans hw)
  · have hv : v ≠ Numeral.maxWord := by omega
    have hends : s.lowest v + 2 ^ s.bucketOf v ≤ s.lowest w + 2 ^ s.bucketOf w := by
      by_cases hin : w < s.lowest v + 2 ^ s.bucketOf v
      · obtain ⟨hb, hl⟩ := slot_eq ((s.lowest_le v).trans h) hin
        rw [hb, hl]
      · exact (Nat.le_of_not_lt hin).trans (Nat.le_of_lt (s.lt_lowest_add w))
    rw [highest_of_ne hv, highest_of_ne hm]
    omega

theorem le_highest (hv : v ≤ Numeral.maxWord) : v ≤ s.highest v := by
  by_cases h : v = Numeral.maxWord
  · exact Nat.le_of_eq (if_pos h).symm
  · have hlt := s.lt_lowest_add v
    rw [highest_of_ne h]
    omega

theorem highest_max_le_iff {m : Nat} (hv : v ≤ Numeral.maxWord) (hw : w ≤ Numeral.maxWord) :
    s.highest (max v w) ≤ m ↔ s.highest v ≤ m ∧ s.highest w ≤ m := by
  constructor
  · intro h
    have hmax : max v w ≤ Numeral.maxWord := Nat.max_le.2 ⟨hv, hw⟩
    exact ⟨(highest_mono (Nat.le_max_left v w) hmax).trans h,
      (highest_mono (Nat.le_max_right v w) hmax).trans h⟩
  · rintro ⟨h₁, h₂⟩
    rcases Nat.le_total v w with h | h
    · rwa [Nat.max_eq_right h]
    · rwa [Nat.max_eq_left h]

theorem two_pow_le_lowest {k : Nat} (h : 2 ^ k ≤ v) : 2 ^ k ≤ s.lowest v := by
  have hk : k < s.magnitude + s.bucketOf v :=
    (Nat.pow_lt_pow_iff_right (by decide)).1 (h.trans_lt (s.lt_of_bucketOf v))
  rcases Nat.eq_zero_or_pos (s.bucketOf v) with hb | hb
  · rwa [lowest, hb, Nat.pow_zero, Nat.div_one, Nat.mul_one]
  · exact (Nat.pow_le_pow_right (by decide) (by omega)).trans (le_lowest_of_bucketOf_pos hb)

theorem least_of_ne (h : v ≠ Numeral.maxWord) : s.least v = s.lowest v := if_neg h

theorem least_le (s : Scale) (v : Nat) : s.least v ≤ v := by
  rw [least]
  split
  case isTrue => exact Nat.le_refl _
  case isFalse => exact s.lowest_le v

theorem least_least (s : Scale) (v : Nat) : s.least (s.least v) = s.least v := by
  by_cases h : v = Numeral.maxWord
  · have he : s.least v = v := if_pos h
    rw [he, he]
  · rw [least_of_ne h]
    by_cases hl : s.lowest v = Numeral.maxWord
    · exact if_pos hl
    · rw [least_of_ne hl, lowest_lowest]

theorem least_mono (h : v ≤ w) : s.least v ≤ s.least w := by
  by_cases hw : w = Numeral.maxWord
  · have he : s.least w = w := if_pos hw
    rw [he]
    exact (s.least_le v).trans h
  · rw [least_of_ne hw]
    by_cases hv : v = Numeral.maxWord
    -- above the last 64-bit value the slots go on from the next one
    · have hnext : 2 ^ 64 ≤ w := by
        rw [hv] at h
        simp only [Numeral.maxWord] at h hw
        omega
      refine (s.least_le v).trans ?_
      rw [hv]
      exact (Nat.sub_le _ _).trans (two_pow_le_lowest hnext)
    · rw [least_of_ne hv]
      exact lowest_mono h

theorem le_least_min_iff {m : Nat} : m ≤ s.least (min v w) ↔ m ≤ s.least v ∧ m ≤ s.least w := by
  constructor
  · intro h
    exact ⟨h.trans (least_mono (Nat.min_le_left v w)), h.trans (least_mono (Nat.min_le_right v w))⟩
  · rintro ⟨h₁, h₂⟩
    rcases Nat.le_total v w with h | h
    · rwa [Nat.min_eq_left h]
    · rwa [Nat.min_eq_right h]

section SlotOf

theorem slotOf_of_lt_half (h : v / 2 ^ s.bucketOf v < s.half) : s.bucketOf v = 0 ∧ s.slotOf v = v := by
  have hb : s.bucketOf v = 0 := by
    by_contra hne
    exact Nat.not_le_of_lt h (half_le_div (Nat.pos_of_ne_zero hne))
  refine ⟨hb, ?_⟩
  rw [slotOf, hb, Nat.zero_mul, Nat.zero_add, Nat.pow_zero, Nat.div_one]

theorem slotOf_of_half_le (h : s.half ≤ v / 2 ^ s.bucketOf v) :
    s.slotOf v = (s.bucketOf v + 1) * s.half + (v / 2 ^ s.bucketOf v - s.half) := by
  rw [slotOf, Nat.succ_mul]
  omega

theorem slotValue_slotOf (s : Scale) (v : Nat) : s.slotValue (s.slotOf v) = s.lowest v := by
  have hq := s.div_lt_two_mul_half v
  by_cases hlow : v / 2 ^ s.bucketOf v < s.half
  · obtain ⟨hb, hslot⟩ := slotOf_of_lt_half hlow
    rw [hb, Nat.pow_zero, Nat.div_one] at hlow
    rw [hslot, slotValue, if_pos hlow, lowest, hb, Nat.pow_zero, Nat.div_one, Nat.mul_one]
  · have hhigh := Nat.le_of_not_lt hlow
    have hrest : v / 2 ^ s.bucketOf v - s.half < s.half := by omega
    have hpos : 0 < s.half := Nat.two_pow_pos _
    have hslot := slotOf_of_half_le hhigh
    have hdiv : s.slotOf v / s.half = s.bucketOf v + 1 := by
      rw [hslot, Nat.mul_comm, Nat.mul_add_div hpos, Nat.div_eq_of_lt hrest]
    have hmod : s.slotOf v % s.half = v / 2 ^ s.bucketOf v - s.half := by
      rw [hslot, Nat.mul_comm, Nat.mul_add_mod, Nat.mod_eq_of_lt hrest]
    have hge : ¬s.slotOf v < s.half := by
      intro hlt
      rw [Nat.div_eq_of_lt hlt] at hdiv
      exact Nat.succ_ne_zero _ hdiv.symm
    rw [slotValue, if_neg hge, hdiv, hmod, Nat.sub_add_cancel hhigh, Nat.add_sub_cancel]
    rfl

theorem slotOf_zero (s : Scale) : s.slotOf 0 = 0 := by
  rw [slotOf, bucketOf_zero, Nat.zero_mul, Nat.zero_add, Nat.zero_div]

theorem bucketOf_mono (h : v ≤ w) : s.bucketOf v ≤ s.bucketOf w := by
  have hlen : bitLength v ≤ bitLength w :=
    bitLength_le_iff.2 (h.trans_lt (bitLength_le_iff.1 (Nat.le_refl _)))
  rw [bucketOf, bucketOf]
  omega

theorem slotOf_mono (h : v ≤ w) : s.slotOf v ≤ s.slotOf w := by
  rcases Nat.lt_or_eq_of_le (bucketOf_mono (s := s) h) with hlt | heq
  · calc s.slotOf v
      _ ≤ s.bucketOf v * s.half + 2 * s.half :=
        Nat.add_le_add_left (Nat.le_of_lt (s.div_lt_two_mul_half v)) _
      _ = (s.bucketOf v + 1) * s.half + s.half := by ring
      _ ≤ s.bucketOf w * s.half + w / 2 ^ s.bucketOf w :=
        Nat.add_le_add (Nat.mul_le_mul_right _ hlt) (half_le_div (Nat.zero_lt_of_lt hlt))
  · rw [slotOf, slotOf, heq]
    exact Nat.add_le_add_left (Nat.div_le_div_right h) _

theorem lowest_le_of_slotOf_le (h : s.slotOf v ≤ s.slotOf w) : s.lowest v ≤ s.lowest w := by
  rcases Nat.le_total v w with hle | hge
  · exact lowest_mono hle
  · have hslot := Nat.le_antisymm h (slotOf_mono hge)
    rw [← slotValue_slotOf, ← slotValue_slotOf, hslot]

end SlotOf

def bound (s : Scale) : Nat := 2 ^ (s.magnitude + s.bucketOf s.limit)

theorem limit_lt_bound (s : Scale) : s.limit < s.bound := s.lt_of_bucketOf s.limit

theorem covers_iff : s.covers v = true ↔ v < s.bound := by
  rw [covers, decide_eq_true_eq, bound, ← bitLength_le_iff, bucketOf]
  omega

theorem clamp_of_lt_bound (h : v < s.bound) : s.clamp v = v := if_pos (covers_iff.2 h)

theorem clamp_of_bound_le (h : s.bound ≤ v) : s.clamp v = s.limit :=
  if_neg fun hcovers => Nat.not_lt_of_le h (covers_iff.1 hcovers)

theorem clamp_lt (s : Scale) (v : Nat) : s.clamp v < s.bound := by
  by_cases h : v < s.bound
  · rwa [clamp_of_lt_bound h]
  · rw [clamp_of_bound_le (Nat.le_of_not_lt h)]
    exact s.limit_lt_bound

theorem highest_lt_bound (hv : v < s.bound) : s.highest v < s.bound := by
  have hbucket : s.bucketOf v ≤ s.bucketOf s.limit := by
    have hlen := bitLength_le_iff.2 hv
    rw [bucketOf]
    omega
  calc s.highest v
    _ < s.lowest v + 2 ^ s.bucketOf v := s.highest_lt v
    _ ≤ 2 ^ (s.magnitude + s.bucketOf v) := s.lowest_add_le v
    _ ≤ s.bound := Nat.pow_le_pow_right (by decide) (Nat.add_le_add_left hbucket _)

theorem bound_le {k : Nat} (hk : 18 ≤ k) (h : s.limit < 2 ^ k) : s.bound ≤ 2 ^ k := by
  have hdigits : s.magnitude ≤ 18 := by
    apply bitLength_le_iff.2
    have hpow : 10 ^ s.digits ≤ 10 ^ 5 := Nat.pow_le_pow_right (by decide) s.digits_le_five
    omega
  have hlimit := bitLength_le_iff.2 h
  apply Nat.pow_le_pow_right (by decide)
  rw [bucketOf]
  omega

theorem clamp_le_maxWord (h : s.limit ≤ Numeral.maxWord) (v : Nat) :
    s.clamp v ≤ Numeral.maxWord := by
  have hlt : s.limit < 2 ^ 64 := Nat.lt_of_le_of_lt h (by decide)
  exact Nat.le_pred_of_lt ((s.clamp_lt v).trans_le (bound_le (by decide) hlt))

theorem highest_zero (s : Scale) : s.highest 0 = 0 := by
  have hb := s.bucketOf_zero
  have hl : s.lowest 0 = 0 := Nat.le_zero.1 (s.lowest_le 0)
  rw [highest_of_ne (by decide), hb, hl]
  rfl

end Scale

end TrafficMonitor.Sketch
