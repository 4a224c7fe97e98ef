import TrafficMonitor.Proofs.Decimal.Nearest

/-!
The shortest decimal of a number is one of its neighbourhood: seventeen digits always suffice, as
the step of their grid is less than the neighbourhood is wide.
-/

namespace TrafficMonitor.Decimal.Shortest

open Binary64

def Scientific.value (d : Scientific) : ℚ := d.digits * 10 ^ d.place

section Magnitude

variable {n : Nat}

theorem pow_digitCount_le (hn : n ≠ 0) : 10 ^ (digitCount n - 1) ≤ n := by
  rw [digitCount, if_neg hn]
  by_cases hone : (Nat.toDigits 10 n).length - 1 = 0
  · rw [hone]
    exact Nat.pos_of_ne_zero hn
  · by_contra hlt
    have hle := (Nat.length_toDigits_le_iff (by decide) (Nat.pos_of_ne_zero hone)).2 (not_le.1 hlt)
    omega

theorem lt_pow_digitCount (n : Nat) : n < 10 ^ digitCount n := by
  rw [digitCount]
  split
  case isTrue hn => rw [hn, pow_zero]; exact Nat.one_pos
  case isFalse => exact (Nat.length_toDigits_le_iff (by decide) Nat.length_toDigits_pos).1 le_rfl

theorem zpow_magnitude_le {num den : Nat} (hnum : num ≠ 0) (hden : den ≠ 0) :
    (10 : ℚ) ^ (magnitude num den - 1) ≤ num / den := by
  have hden' : (0 : ℚ) < den := by exact_mod_cast Nat.pos_of_ne_zero hden
  rw [magnitude]
  split
  case isTrue h =>
    have hquot : num / den ≠ 0 := (Nat.div_pos h (Nat.pos_of_ne_zero hden)).ne'
    have hcount : 1 ≤ digitCount (num / den) := by
      rw [digitCount, if_neg hquot]
      exact Nat.length_toDigits_pos
    have hle := Nat.mul_le_of_le_div _ _ _ (pow_digitCount_le hquot)
    rw [← Nat.cast_pred hcount, zpow_natCast, le_div_iff₀ hden']
    exact_mod_cast hle
  case isFalse h =>
    set j := digitCount ((den + num - 1) / num - 1)
    have hpos : 0 < num := Nat.pos_of_ne_zero hnum
    have hceil : (den + num - 1) / num ≤ 10 ^ j := by
      have hlt : (den + num - 1) / num - 1 < 10 ^ j := lt_pow_digitCount _
      omega
    have hle : den ≤ num * 10 ^ j := by
      have hlt := (Nat.div_lt_iff_lt_mul hpos).1 (Nat.lt_succ_of_le hceil)
      rw [Nat.succ_mul, mul_comm] at hlt
      omega
    rw [show (1 - (j : Int) - 1) = -(j : Int) by ring, zpow_neg, zpow_natCast,
      le_div_iff₀ hden', inv_mul_le_iff₀ (by positivity)]
    rw [mul_comm]
    exact_mod_cast hle

end Magnitude

section Grid

variable {n : Neighbourhood} {place : Int} {d : Scientific}

def Neighbourhood.covers (n : Neighbourhood) (place : Int) (k : Nat) : Bool :=
  let up := 10 ^ (-place).toNat
  let step := n.den * 10 ^ place.toNat
  if n.closed then n.low * up ≤ k * step && k * step ≤ n.high * up
  else n.low * up < k * step && k * step < n.high * up

theorem grid_eq (r : ℚ) (place : Int) :
    r * 10 ^ place = r * 10 ^ place.toNat / 10 ^ (-place).toNat := by
  rw [zpow_eq_div (by norm_num), mul_div_assoc]

theorem covers_iff (hden : n.den ≠ 0) (place : Int) (k : Nat) :
    n.covers place k = true ↔ n.Contains (k * 10 ^ place) := by
  have hden' : (0 : ℚ) < n.den := by exact_mod_cast Nat.pos_of_ne_zero hden
  rw [Neighbourhood.covers, Neighbourhood.Contains, grid_eq]
  rw [div_le_div_iff₀ hden' (by positivity), div_le_div_iff₀ (by positivity) hden',
    div_lt_div_iff₀ hden' (by positivity), div_lt_div_iff₀ (by positivity) hden']
  split
  · rw [Bool.and_eq_true, decide_eq_true_iff, decide_eq_true_iff]
    rw [mul_assoc (k : ℚ), mul_comm _ (n.den : ℚ)]
    exact_mod_cast Iff.rfl
  · rw [Bool.and_eq_true, decide_eq_true_iff, decide_eq_true_iff]
    rw [mul_assoc (k : ℚ), mul_comm _ (n.den : ℚ)]
    exact_mod_cast Iff.rfl

def Neighbourhood.steps (n : Neighbourhood) (place : Int) : Nat :=
  n.value * 10 ^ (-place).toNat / (n.den * 10 ^ place.toNat)

theorem steps_bounds (hden : n.den ≠ 0) (place : Int) :
    (n.steps place * 10 ^ place ≤ (n.value / n.den : ℚ)) ∧
      (n.value / n.den : ℚ) < (n.steps place + 1) * 10 ^ place := by
  have hden' : (0 : ℚ) < n.den := by exact_mod_cast Nat.pos_of_ne_zero hden
  have hpos : 0 < n.den * 10 ^ place.toNat := by positivity
  constructor
  · have hle : n.steps place * (n.den * 10 ^ place.toNat) ≤ n.value * 10 ^ (-place).toNat :=
      Nat.div_mul_le_self _ _
    rw [grid_eq, div_le_div_iff₀ (by positivity) hden', mul_assoc, mul_comm _ (n.den : ℚ)]
    exact_mod_cast hle
  · have hlt : n.value * 10 ^ (-place).toNat < (n.steps place + 1) * (n.den * 10 ^ place.toNat) :=
      Nat.lt_mul_of_div_lt (Nat.lt_succ_self _) hpos
    rw [grid_eq, div_lt_div_iff₀ hden' (by positivity), mul_assoc, mul_comm _ (n.den : ℚ)]
    exact_mod_cast hlt

theorem onGrid?_eq (n : Neighbourhood) (place : Int) : ∃ upperNearer : Bool, onGrid? n place =
    let k := n.steps place
    if n.covers place (k + 1) && (upperNearer || !n.covers place k) then some ⟨k + 1, place⟩
    else if n.covers place k then some ⟨k, place⟩
    else none := by
  have hup : (if 0 ≤ place then 1 else 10 ^ (-place).toNat) = 10 ^ (-place).toNat := by
    split
    case isTrue hp => rw [Int.toNat_of_nonpos (Int.neg_nonpos_of_nonneg hp), pow_zero]
    case isFalse => rfl
  have hstep : (if 0 ≤ place then n.den * 10 ^ place.toNat else n.den) = n.den * 10 ^ place.toNat := by
    split
    case isTrue => rfl
    case isFalse hp => rw [Int.toNat_of_nonpos (by omega : place ≤ 0), pow_zero, mul_one]
  rw [onGrid?]
  simp only [hup, hstep]
  exact ⟨_, rfl⟩

theorem contains_of_onGrid? (hden : n.den ≠ 0) (h : onGrid? n place = some d) :
    n.Contains d.value := by
  obtain ⟨upperNearer, heq⟩ := onGrid?_eq n place
  simp only [h] at heq
  split at heq
  case isTrue hupper =>
    obtain rfl := Option.some.inj heq
    exact (covers_iff hden place _).1 (Bool.and_eq_true_iff.1 hupper).1
  case isFalse =>
    split at heq
    case isTrue hlower =>
      obtain rfl := Option.some.inj heq
      exact (covers_iff hden place _).1 hlower
    case isFalse => cases heq

theorem isSome_onGrid? (hden : n.den ≠ 0) (hlow : (n.low / n.den : ℚ) < n.value / n.den)
    (hhigh : (n.value / n.den : ℚ) < n.high / n.den)
    (hstep : (10 : ℚ) ^ place < n.high / n.den - n.low / n.den) : (onGrid? n place).isSome := by
  obtain ⟨hle, hlt⟩ := steps_bounds hden place
  have hcovers : n.covers place (n.steps place) = true ∨ n.covers place (n.steps place + 1) = true := by
    rw [covers_iff hden, covers_iff hden]
    push_cast
    by_contra hneither
    obtain ⟨hlower, hupper⟩ := not_or.1 hneither
    rw [Neighbourhood.Contains] at hlower hupper
    split at hlower
    case isTrue hclosed =>
      rw [if_pos hclosed] at hupper
      have hbelow := lt_of_not_ge fun h => hlower ⟨h, by linarith⟩
      have habove := lt_of_not_ge fun h => hupper ⟨by linarith, h⟩
      linarith
    case isFalse hopen =>
      rw [if_neg hopen] at hupper
      have hbelow := le_of_not_gt fun h => hlower ⟨h, by linarith⟩
      have habove := le_of_not_gt fun h => hupper ⟨by linarith, h⟩
      linarith
  obtain ⟨upperNearer, heq⟩ := onGrid?_eq n place
  rw [heq]
  rcases hcovers with h | h
  · simp only [h, Bool.not_true, Bool.or_false]
    split <;> rfl
  · simp only [h, Bool.true_and]
    cases n.covers place (n.steps place)
    · rw [Bool.not_false, Bool.or_true]
      rfl
    · split <;> rfl

end Grid

section Found

variable {m : Nat} {e : Int}

theorem value_lt_high (m : Nat) (e : Int) :
    ((neighbourhood m e).value / (neighbourhood m e).den : ℚ) <
      (neighbourhood m e).high / (neighbourhood m e).den := by
  rw [value_neighbourhood, high_neighbourhood]
  gcongr
  linarith

theorem low_lt_value (hm : 0 < m) :
    ((neighbourhood m e).low / (neighbourhood m e).den : ℚ) <
      (neighbourhood m e).value / (neighbourhood m e).den := by
  have hreach : (0 : ℚ) < reachBelow m e / 4 := by
    rw [reachBelow]
    split <;> norm_num
  rw [value_neighbourhood, low_neighbourhood hm]
  gcongr
  linarith

theorem value_lt_width (hc : Canonical m e) (hm : 0 < m) :
    ((neighbourhood m e).value / (neighbourhood m e).den : ℚ) <
      10 ^ 16 * ((neighbourhood m e).high / (neighbourhood m e).den -
        (neighbourhood m e).low / (neighbourhood m e).den) := by
  have hpow : (0 : ℚ) < 2 ^ e := by positivity
  have hlt : (m : ℚ) < 2 ^ 53 := by exact_mod_cast hc.lt
  have hparts : (m : ℚ) < 10 ^ 16 * (1 / 2 + reachBelow m e / 4) := by
    norm_num at hlt
    rw [reachBelow]
    split
    case isTrue h =>
      rw [h.1]
      norm_num
    case isFalse =>
      norm_num
      linarith
  rw [value_neighbourhood, high_neighbourhood, low_neighbourhood hm]
  calc (m * 2 ^ e : ℚ)
      < 10 ^ 16 * (1 / 2 + reachBelow m e / 4) * 2 ^ e := by gcongr
    _ = 10 ^ 16 * ((m + 1 / 2) * 2 ^ e - (m - reachBelow m e / 4) * 2 ^ e) := by ring

theorem contains_shortest (hc : Canonical m e) (hm : 0 < m) :
    (neighbourhood m e).Contains (shortest m e).value := by
  have hden : (neighbourhood m e).den ≠ 0 := by
    rw [neighbourhood_eq]
    positivity
  have hvalue : (neighbourhood m e).value ≠ 0 := by
    rw [neighbourhood_eq]
    positivity
  have hdigit := zpow_magnitude_le hvalue hden
  set k := magnitude (neighbourhood m e).value (neighbourhood m e).den with hk
  have hstep : (10 : ℚ) ^ (k - ((16 : Nat) + 1)) <
      (neighbourhood m e).high / (neighbourhood m e).den -
        (neighbourhood m e).low / (neighbourhood m e).den := by
    have hsplit : (10 : ℚ) ^ (k - 1) = 10 ^ 16 * 10 ^ (k - ((16 : Nat) + 1)) := by
      rw [← zpow_natCast, ← zpow_add₀ (by norm_num)]
      congr 1
      push_cast
      ring
    have hlt := hdigit.trans_lt (value_lt_width hc hm)
    rw [hsplit] at hlt
    exact lt_of_mul_lt_mul_left hlt (by positivity)
  have hsome := isSome_onGrid? hden (low_lt_value hm) (value_lt_high m e) hstep
  have hfound : ((List.range 17).findSome? fun (i : Nat) =>
      onGrid? (neighbourhood m e) (k - (i + 1))).isSome :=
    List.findSome?_isSome_iff.2 ⟨16, List.mem_range.2 (by decide), hsome⟩
  obtain ⟨d, hd⟩ := Option.isSome_iff_exists.1 hfound
  obtain ⟨i, -, hi⟩ := List.exists_of_findSome?_eq_some hd
  rw [shortest]
  simp only [← hk]
  rw [hd]
  exact contains_of_onGrid? hden hi

end Found

end TrafficMonitor.Decimal.Shortest
