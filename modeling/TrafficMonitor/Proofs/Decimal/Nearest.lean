import Mathlib.Algebra.Order.Field.Power
import Mathlib.Algebra.Order.Field.Rat
import Mathlib.Tactic.FieldSimp
import Mathlib.Tactic.Linarith
import Mathlib.Tactic.NormNum
import Mathlib.Tactic.Positivity
import Mathlib.Tactic.Ring
import TrafficMonitor.Decimal.Shortest
import TrafficMonitor.Proofs.Decimal.Bits

namespace TrafficMonitor.Decimal

def Shortest.Neighbourhood.Contains (n : Shortest.Neighbourhood) (r : ℚ) : Prop :=
  if n.closed then (n.low / n.den : ℚ) ≤ r ∧ r ≤ n.high / n.den
  else (n.low / n.den : ℚ) < r ∧ r < n.high / n.den

namespace Binary64

open Shortest

section Powers

theorem zpow_eq_div {b : ℚ} (hb : b ≠ 0) (k : Int) : b ^ k = b ^ k.toNat / b ^ (-k).toNat := by
  rw [← zpow_natCast, ← zpow_natCast, ← zpow_sub₀ hb]
  congr 1
  omega

theorem zpow_le_ratio_iff {num den : Nat} (hden : den ≠ 0) (k : Int) :
    (2 : ℚ) ^ k ≤ num / den ↔ den * 2 ^ k.toNat ≤ num * 2 ^ (-k).toNat := by
  have hden' : (0 : ℚ) < den := by exact_mod_cast Nat.pos_of_ne_zero hden
  rw [zpow_eq_div two_ne_zero, div_le_div_iff₀ (by positivity) hden', mul_comm]
  exact_mod_cast Iff.rfl

end Powers

section FloorLog

variable {num den : Nat}

theorem floorLog_spec (hnum : num ≠ 0) (hden : den ≠ 0) :
    (2 : ℚ) ^ floorLog num den ≤ num / den ∧ (num / den : ℚ) < 2 ^ (floorLog num den + 1) := by
  have hnum' : (2 : ℚ) ^ num.log2 ≤ num ∧ (num : ℚ) < 2 ^ (num.log2 + 1) := by
    exact_mod_cast And.intro (Nat.log2_self_le hnum) (Nat.lt_log2_self (n := num))
  have hden' : (2 : ℚ) ^ den.log2 ≤ den ∧ (den : ℚ) < 2 ^ (den.log2 + 1) := by
    exact_mod_cast And.intro (Nat.log2_self_le hden) (Nat.lt_log2_self (n := den))
  have hpos : (0 : ℚ) < den := by exact_mod_cast Nat.pos_of_ne_zero hden
  set k : Int := (num.log2 : Int) - den.log2 with hk
  have hreached : (if 0 ≤ k then den * 2 ^ k.toNat ≤ num else den ≤ num * 2 ^ (-k).toNat) ↔
      (2 : ℚ) ^ k ≤ num / den := by
    rw [zpow_le_ratio_iff hden]
    split
    case isTrue h => rw [Int.toNat_of_nonpos (Int.neg_nonpos_of_nonneg h), pow_zero, mul_one]
    case isFalse h => rw [Int.toNat_of_nonpos (by omega : k ≤ 0), pow_zero, mul_one]
  have hlow : (2 : ℚ) ^ (k - 1) ≤ num / den := by
    rw [le_div_iff₀ hpos]
    calc (2 : ℚ) ^ (k - 1) * den
        ≤ 2 ^ (k - 1) * 2 ^ (den.log2 + 1) := by gcongr; exact hden'.2.le
      _ = 2 ^ num.log2 := by
        rw [← zpow_natCast, ← zpow_natCast, ← zpow_add₀ two_ne_zero]
        congr 1
        push_cast
        omega
      _ ≤ num := hnum'.1
  have hhigh : (num / den : ℚ) < 2 ^ (k + 1) := by
    rw [div_lt_iff₀ hpos]
    calc (num : ℚ)
        < 2 ^ (num.log2 + 1) := hnum'.2
      _ = 2 ^ (k + 1) * 2 ^ den.log2 := by
        rw [← zpow_natCast, ← zpow_natCast, ← zpow_add₀ two_ne_zero]
        congr 1
        push_cast
        omega
      _ ≤ 2 ^ (k + 1) * den := by gcongr; exact hden'.1
  rw [floorLog]
  simp only [← hk]
  by_cases h : (2 : ℚ) ^ k ≤ num / den
  · rw [if_pos (hreached.2 h)]
    exact ⟨h, hhigh⟩
  · rw [if_neg (mt hreached.1 h), sub_add_cancel]
    exact ⟨hlow, not_le.1 h⟩

theorem floorLog_lt_iff (hnum : num ≠ 0) (hden : den ≠ 0) (t : Int) :
    floorLog num den < t ↔ (num / den : ℚ) < 2 ^ t := by
  obtain ⟨hlow, hhigh⟩ := floorLog_spec hnum hden
  constructor
  · intro h
    exact hhigh.trans_le (zpow_le_zpow_right₀ one_le_two (Int.add_one_le_of_lt h))
  · intro h
    exact (zpow_lt_zpow_iff_right₀ one_lt_two).1 (hlow.trans_lt h)

theorem floorLog_lt_add_iff (hnum : num ≠ 0) (hden : den ≠ 0) (e t : Int) :
    floorLog num den < e + t ↔ (num / den / 2 ^ e : ℚ) < 2 ^ t := by
  rw [floorLog_lt_iff hnum hden, zpow_add₀ two_ne_zero, ← div_lt_iff₀' (by positivity)]

end FloorLog

structure RoundsTo (m : Nat) (r : ℚ) : Prop where
  low : 2 * (m : ℚ) - 1 ≤ 2 * r
  high : 2 * r ≤ 2 * m + 1
  odd : m % 2 = 1 → 2 * (m : ℚ) - 1 < 2 * r ∧ 2 * r < 2 * m + 1

section HalfEven

variable {num den m : Nat}

theorem divHalfEven_eq_of_bounds (hden : den ≠ 0) (hlow : 2 * m * den ≤ 2 * num + den)
    (hhigh : 2 * num ≤ 2 * m * den + den)
    (hodd : m % 2 = 1 → 2 * m * den < 2 * num + den ∧ 2 * num < 2 * m * den + den) :
    divHalfEven num den = m := by
  have hdiv := Nat.div_add_mod num den
  have hmod := Nat.mod_lt num (Nat.pos_of_ne_zero hden)
  have htwice : 2 * (m * den) = 2 * m * den := (Nat.mul_assoc _ _ _).symm
  have hle : num / den ≤ m := by
    have hlt : num < (m + 1) * den := by
      rw [Nat.succ_mul]
      omega
    exact Nat.lt_succ_iff.1 ((Nat.div_lt_iff_lt_mul (Nat.pos_of_ne_zero hden)).2 hlt)
  have hge : m ≤ num / den + 1 := by
    by_contra hlt
    have hmul := Nat.mul_le_mul_right den (show num / den + 2 ≤ m by omega)
    have hsum : (num / den + 2) * den = den * (num / den) + 2 * den := by ring
    omega
  rw [divHalfEven]
  rcases (by omega : num / den = m ∨ num / den + 1 = m) with hq | hq
  · have hproduct : 2 * m * den = 2 * (den * (num / den)) := by rw [hq]; ring
    split
    · exact hq
    · split <;> omega
  · have hproduct : 2 * m * den = 2 * (den * (num / den)) + 2 * den := by rw [← hq]; ring
    split
    · omega
    · split <;> omega

theorem divHalfEven_eq (hden : den ≠ 0) (h : RoundsTo m (num / den)) : divHalfEven num den = m := by
  have hpos : (0 : ℚ) < den := by exact_mod_cast Nat.pos_of_ne_zero hden
  obtain ⟨hlow, hhigh, hodd⟩ := h
  rw [← mul_div_assoc] at hlow hhigh hodd
  rw [le_div_iff₀ hpos] at hlow
  rw [div_le_iff₀ hpos] at hhigh
  rw [lt_div_iff₀ hpos, div_lt_iff₀ hpos] at hodd
  refine divHalfEven_eq_of_bounds hden ?_ ?_ fun hm => ?_
  · exact_mod_cast (by linarith : (2 * m * den : ℚ) ≤ 2 * num + den)
  · exact_mod_cast (by linarith : (2 * num : ℚ) ≤ 2 * m * den + den)
  · obtain ⟨hl, hh⟩ := hodd hm
    exact_mod_cast And.intro (by linarith : (2 * m * den : ℚ) < 2 * num + den)
      (by linarith : (2 * num : ℚ) < 2 * m * den + den)

theorem scaledHalfEven_eq {e : Int} (hden : den ≠ 0) (h : RoundsTo m (num / den / 2 ^ e)) :
    scaledHalfEven num den e = m := by
  have hscaled : scaledHalfEven num den e =
      divHalfEven (num * 2 ^ (-e).toNat) (den * 2 ^ e.toNat) := by
    rw [scaledHalfEven]
    split
    case isTrue he => rw [Int.toNat_of_nonpos (Int.neg_nonpos_of_nonneg he), pow_zero, mul_one]
    case isFalse he => rw [Int.toNat_of_nonpos (by omega : e ≤ 0), pow_zero, mul_one]
  rw [hscaled]
  refine divHalfEven_eq (Nat.mul_ne_zero hden (by positivity)) ?_
  have hratio : ((num * 2 ^ (-e).toNat : Nat) : ℚ) / ((den * 2 ^ e.toNat : Nat) : ℚ) =
      num / den / 2 ^ e := by
    have hden' : (den : ℚ) ≠ 0 := by exact_mod_cast hden
    rw [zpow_eq_div two_ne_zero]
    push_cast
    field_simp
  rwa [hratio]

end HalfEven

section Neighbourhoods

structure Canonical (m : Nat) (e : Int) : Prop where
  lt : m < 2 ^ 53
  least_le : leastExponent ≤ e
  le : e ≤ 971
  full : 2 ^ 52 ≤ m ∨ e = leastExponent

def magnitudeBits (m : Nat) (e : Int) : Nat :=
  if m < 2 ^ 52 then m else (e + 1075).toNat * 2 ^ 52 + (m - 2 ^ 52)

variable {m : Nat} {e : Int} {r : ℚ}

def reachBelow (m : Nat) (e : Int) : Nat := if m = 2 ^ 52 ∧ leastExponent < e then 1 else 2

theorem neighbourhood_eq (m : Nat) (e : Int) : neighbourhood m e =
    { value := 4 * m * 2 ^ (e - 2).toNat
      low := (4 * m - reachBelow m e) * 2 ^ (e - 2).toNat
      high := (4 * m + 2) * 2 ^ (e - 2).toNat
      den := 2 ^ (2 - e).toNat
      closed := m % 2 == 0 } := by
  rw [neighbourhood, reachBelow]
  split
  case isTrue he => rw [Int.toNat_of_nonpos (by omega : 2 - e ≤ 0), pow_zero]
  case isFalse he => rw [Int.toNat_of_nonpos (by omega : e - 2 ≤ 0), pow_zero]

theorem quarters_eq (k : Nat) (e : Int) :
    ((k * 2 ^ (e - 2).toNat : Nat) : ℚ) / ((2 ^ (2 - e).toNat : Nat) : ℚ) = k / 4 * 2 ^ e := by
  have hpow : (2 : ℚ) ^ e = 2 ^ (e - 2) * 4 := by
    rw [zpow_sub₀ two_ne_zero]
    norm_num
  rw [hpow, zpow_eq_div two_ne_zero (e - 2), neg_sub]
  push_cast
  ring

theorem value_neighbourhood (m : Nat) (e : Int) :
    ((neighbourhood m e).value / (neighbourhood m e).den : ℚ) = m * 2 ^ e := by
  rw [neighbourhood_eq, quarters_eq]
  push_cast
  ring

theorem low_neighbourhood (hm : 0 < m) :
    ((neighbourhood m e).low / (neighbourhood m e).den : ℚ) =
      (m - reachBelow m e / 4) * 2 ^ e := by
  have hreach : reachBelow m e ≤ 4 * m := by
    rw [reachBelow]
    split <;> omega
  rw [neighbourhood_eq, quarters_eq, Nat.cast_sub hreach]
  push_cast
  ring

theorem high_neighbourhood (m : Nat) (e : Int) :
    ((neighbourhood m e).high / (neighbourhood m e).den : ℚ) = (m + 1 / 2) * 2 ^ e := by
  rw [neighbourhood_eq, quarters_eq]
  push_cast
  ring

theorem closed_neighbourhood (m : Nat) (e : Int) :
    (neighbourhood m e).closed = true ↔ m % 2 = 0 := by
  rw [neighbourhood_eq]
  exact beq_iff_eq

theorem le_of_contains (hm : 0 < m) (h : (neighbourhood m e).Contains r) :
    (m - reachBelow m e / 4 : ℚ) ≤ r / 2 ^ e := by
  have hpow : (0 : ℚ) < 2 ^ e := by positivity
  rw [le_div_iff₀ hpow, ← low_neighbourhood hm]
  rw [Neighbourhood.Contains] at h
  split at h
  · exact h.1
  · exact h.1.le

theorem roundsTo_of_contains (hm : 0 < m) (h : (neighbourhood m e).Contains r) :
    RoundsTo m (r / 2 ^ e) := by
  have hpow : (0 : ℚ) < 2 ^ e := by positivity
  have hreach : (reachBelow m e : ℚ) / 4 ≤ 1 / 2 := by
    rw [reachBelow]
    split <;> norm_num
  rw [Neighbourhood.Contains, low_neighbourhood hm, high_neighbourhood] at h
  split at h
  case isTrue hclosed =>
    have heven := (closed_neighbourhood m e).1 hclosed
    have hlow := (le_div_iff₀ hpow).2 h.1
    have hhigh := (div_le_iff₀ hpow).2 h.2
    exact ⟨by linarith, by linarith, by omega⟩
  case isFalse =>
    have hlow := (lt_div_iff₀ hpow).2 h.1
    have hhigh := (div_lt_iff₀ hpow).2 h.2
    exact ⟨by linarith, by linarith, fun _ => ⟨by linarith, by linarith⟩⟩

section BelowPower

variable {num den : Nat} (hless : r / 2 ^ e < 2 ^ (52 : Int)) (hleast : leastExponent < e)
include hless hleast

theorem eq_two_pow_of_lt (hc : Canonical m e) (h : RoundsTo m (r / 2 ^ e)) : m = 2 ^ 52 := by
  have hfull := hc.full.resolve_right (by omega)
  have hlt : (m : ℚ) < 2 ^ 52 + 1 := by
    have hlow := h.low
    norm_num at hless
    linarith
  exact le_antisymm (Nat.lt_succ_iff.1 (by exact_mod_cast hlt)) hfull

theorem quarter_of_contains (hc : Canonical m e) (hm : 0 < m) (h : (neighbourhood m e).Contains r) :
    (2 ^ 52 - 1 / 4 : ℚ) ≤ r / 2 ^ e := by
  have hpower := eq_two_pow_of_lt hless hleast hc (roundsTo_of_contains hm h)
  have hquarter := le_of_contains hm h
  rw [reachBelow, if_pos ⟨hpower, hleast⟩, hpower] at hquarter
  norm_num at hquarter ⊢
  exact hquarter

end BelowPower

variable {num den : Nat}

theorem scaledHalfEven_below (hden : den ≠ 0) (hlow : (2 ^ 52 - 1 / 4 : ℚ) ≤ num / den / 2 ^ e)
    (hless : (num / den / 2 ^ e : ℚ) < 2 ^ (52 : Int)) : scaledHalfEven num den (e - 1) = 2 ^ 53 := by
  have hdouble : (num / den / 2 ^ (e - 1) : ℚ) = 2 * (num / den / 2 ^ e) := by
    rw [zpow_sub_one₀ two_ne_zero]
    field_simp
  refine scaledHalfEven_eq hden ?_
  rw [hdouble]
  norm_num at hlow hless
  exact ⟨by push_cast; linarith, by push_cast; linarith, fun hodd => absurd hodd (by decide)⟩

theorem nearestBits_eq (hc : Canonical m e) (hm : 0 < m) (hden : den ≠ 0)
    (h : (neighbourhood m e).Contains (num / den)) : nearestBits num den = magnitudeBits m e := by
  have hrounds := roundsTo_of_contains hm h
  have hm' : (1 : ℚ) ≤ m := by exact_mod_cast hm
  have hnum : num ≠ 0 := by
    rintro rfl
    have hlow := hrounds.low
    rw [Nat.cast_zero, zero_div, zero_div] at hlow
    linarith
  have htop : floorLog num den < e + 53 := by
    have hlt : (m : ℚ) + 1 ≤ 2 ^ 53 := by exact_mod_cast hc.lt
    have hhigh := hrounds.high
    rw [floorLog_lt_add_iff hnum hden]
    norm_num at hlt ⊢
    linarith
  have hlt := hc.lt
  have hleast := hc.least_le
  have hle := hc.le
  rw [nearestBits, if_neg (by omega)]
  simp only
  by_cases hbelow : floorLog num den < e + 52 ∧ leastExponent < e
  · have hless := (floorLog_lt_add_iff hnum hden e 52).1 hbelow.1
    have hpower := eq_two_pow_of_lt hless hbelow.2 hc hrounds
    have hquarter := quarter_of_contains hless hbelow.2 hc hm h
    have hnot : ¬floorLog num den < e + 51 := by
      rw [floorLog_lt_add_iff hnum hden, not_lt]
      norm_num at hquarter ⊢
      linarith
    rw [show max (floorLog num den - 52) leastExponent = e - 1 by omega,
      scaledHalfEven_below hden hquarter hless, if_neg (by decide), magnitudeBits, if_neg (by omega)]
    rw [leastExponent] at hleast
    omega
  · rw [show max (floorLog num den - 52) leastExponent = e by omega,
      scaledHalfEven_eq hden hrounds, magnitudeBits]
    rw [leastExponent] at hleast
    split <;> omega

end Neighbourhoods

section Bits

variable {x : Float} {negative : Bool} {m : Nat} {e : Int}

theorem canonical_parts (h : parts x = .finite negative m e) : Canonical m e := by
  rw [parts] at h
  split at h
  · split at h <;> cases h
  · split at h
    · obtain ⟨-, rfl, rfl⟩ := Parts.finite.inj h
      exact ⟨by omega, by decide, by decide, .inr rfl⟩
    · obtain ⟨-, rfl, rfl⟩ := Parts.finite.inj h
      refine ⟨by omega, ?_, ?_, .inl (by omega)⟩
      · rw [leastExponent, Int.ofNat_eq_natCast]
        omega
      · rw [Int.ofNat_eq_natCast]
        omega

theorem toNat_toBits (h : parts x = .finite negative m e) :
    x.toBits.toNat = magnitudeBits m e + if negative then 2 ^ 63 else 0 := by
  have hlt := x.toBits.toNat_lt
  rw [parts] at h
  split at h
  · split at h <;> cases h
  · split at h
    · obtain ⟨rfl, rfl, rfl⟩ := Parts.finite.inj h
      rw [magnitudeBits]
      simp only [decide_eq_true_eq]
      split <;> split <;> omega
    · obtain ⟨rfl, rfl, rfl⟩ := Parts.finite.inj h
      rw [magnitudeBits, Int.ofNat_eq_natCast]
      simp only [decide_eq_true_eq]
      split <;> split <;> omega

theorem nearest_of_toBits {num den : Nat}
    (h : x.toBits.toNat = nearestBits num den + if negative then 2 ^ 63 else 0) :
    nearest negative num den = x := by
  have hword : x.toBits.toNat.toUInt64 = x.toBits := UInt64.ofNat_toNat
  rw [nearest, ← h, hword, ofBits_toBits]

theorem nearest_eq {num den : Nat} (h : parts x = .finite negative m e) (hm : 0 < m) (hden : den ≠ 0)
    (hr : (neighbourhood m e).Contains (num / den)) : nearest negative num den = x := by
  apply nearest_of_toBits
  rw [nearestBits_eq (canonical_parts h) hm hden hr, toNat_toBits h]

theorem nearest_zero (h : parts x = .finite negative 0 e) : nearest negative 0 1 = x :=
  nearest_of_toBits (toNat_toBits h)

theorem nearest_infinite (h : parts x = .infinite negative) : nearest negative (2 ^ 1024) 1 = x := by
  have hlt := x.toBits.toNat_lt
  have hbits : nearestBits (2 ^ 1024) 1 = 2047 * 2 ^ 52 := by decide +kernel
  apply nearest_of_toBits
  rw [hbits]
  rw [parts] at h
  split at h
  · split at h
    · obtain rfl := Parts.infinite.inj h
      simp only [decide_eq_true_eq]
      split <;> omega
    · cases h
  · split at h <;> cases h

end Bits

end Binary64

end TrafficMonitor.Decimal
