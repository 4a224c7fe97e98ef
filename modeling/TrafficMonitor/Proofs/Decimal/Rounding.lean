import Mathlib.Algebra.Order.Ring.Nat
import Mathlib.Data.Nat.Basic
import TrafficMonitor.Decimal.Binary64

namespace TrafficMonitor.Decimal.Binary64

section DivHalfEven

variable {num den : Nat}

theorem le_divHalfEven (num den : Nat) : num / den ≤ divHalfEven num den := by
  rw [divHalfEven]
  split
  · exact Nat.le_refl _
  · split
    · exact Nat.le_succ _
    · exact Nat.le_add_right _ _

theorem divHalfEven_le (num den : Nat) : divHalfEven num den ≤ num / den + 1 := by
  have hparity := Nat.mod_lt (num / den) (show 0 < 2 by decide)
  rw [divHalfEven]
  split
  · exact Nat.le_succ _
  · split
    · exact Nat.le_refl _
    · omega

theorem divHalfEven_mono {num' : Nat} (h : num ≤ num') : divHalfEven num den ≤ divHalfEven num' den := by
  rcases Nat.lt_or_eq_of_le (Nat.div_le_div_right (c := den) h) with hq | hq
  · exact (divHalfEven_le num den).trans ((Nat.succ_le_of_lt hq).trans (le_divHalfEven num' den))
  -- in the same interval the greater number has the greater remainder
  · have hr : num % den ≤ num' % den := by
      have h₁ := Nat.div_add_mod num den
      have h₂ := Nat.div_add_mod num' den
      rw [← hq] at h₂
      omega
    have hparity := Nat.mod_lt (num / den) (show 0 < 2 by decide)
    simp only [divHalfEven, ← hq]
    split <;> split <;> (try split) <;> (try split) <;> omega

theorem two_mul_divHalfEven_mul_le (num den : Nat) :
    2 * (divHalfEven num den * den) ≤ 2 * num + den := by
  have hnum := Nat.div_add_mod num den
  have hparity := Nat.mod_lt (num / den) (show 0 < 2 by decide)
  have hmul : num / den * den = den * (num / den) := Nat.mul_comm _ _
  rw [divHalfEven]
  split
  · omega
  · split
    · rw [Nat.succ_mul (num / den) den]
      omega
    · have hodd : num / den % 2 = 0 ∨ num / den % 2 = 1 := by omega
      rcases hodd with h | h
      · rw [h, Nat.add_zero]
        omega
      · rw [h, Nat.succ_mul (num / den) den]
        omega

theorem divHalfEven_mul_right (num den : Nat) {k : Nat} (hk : 0 < k) :
    divHalfEven (num * k) (den * k) = divHalfEven num den := by
  have hlt (a b : Nat) : 2 * (a * k) < b * k ↔ 2 * a < b := by
    rw [← Nat.mul_assoc, Nat.mul_lt_mul_right hk]
  have hgt (a b : Nat) : b * k < 2 * (a * k) ↔ b < 2 * a := by
    rw [← Nat.mul_assoc, Nat.mul_lt_mul_right hk]
  simp only [divHalfEven, Nat.mul_div_mul_right _ _ hk, Nat.mul_mod_mul_right, hlt, hgt]

theorem divHalfEven_mul_self (n : Nat) {k : Nat} (hk : 0 < k) : divHalfEven (n * k) k = n := by
  rw [divHalfEven]
  rw [Nat.mul_mod_left, Nat.mul_div_cancel _ hk, if_pos (by omega)]

end DivHalfEven

section RoundSignificant

variable {n m : Nat}

theorem roundSignificant_of_lt (h : n < 2 ^ 53) : roundSignificant n = n := if_pos h

theorem roundSignificant_of_le (h : 2 ^ 53 ≤ n) :
    roundSignificant n = divHalfEven n (2 ^ (n.log2 - 52)) * 2 ^ (n.log2 - 52) :=
  if_neg (Nat.not_lt_of_le h)

theorem le_log2_of_le (h : 2 ^ 53 ≤ n) : 53 ≤ n.log2 := (Nat.le_log2 (by omega)).2 h

theorem bounds_of_roundSignificant (h : 2 ^ 53 ≤ n) :
    2 ^ n.log2 ≤ roundSignificant n ∧ roundSignificant n ≤ 2 ^ (n.log2 + 1) := by
  have hlog := le_log2_of_le h
  have hpos := Nat.two_pow_pos (n.log2 - 52)
  have hlow : 2 ^ n.log2 = 2 ^ 52 * 2 ^ (n.log2 - 52) := by
    rw [← Nat.pow_add]
    congr 1
    omega
  have hhigh : 2 ^ (n.log2 + 1) = 2 ^ 53 * 2 ^ (n.log2 - 52) := by
    rw [← Nat.pow_add]
    congr 1
    omega
  have hq : 2 ^ 52 ≤ n / 2 ^ (n.log2 - 52) := by
    rw [Nat.le_div_iff_mul_le hpos, ← hlow]
    exact Nat.log2_self_le (by omega)
  have hq' : n / 2 ^ (n.log2 - 52) < 2 ^ 53 := by
    rw [Nat.div_lt_iff_lt_mul hpos, ← hhigh]
    exact Nat.lt_log2_self
  rw [roundSignificant_of_le h, hlow, hhigh]
  constructor
  · exact Nat.mul_le_mul_right _ (hq.trans (le_divHalfEven _ _))
  · exact Nat.mul_le_mul_right _ ((divHalfEven_le _ _).trans hq')

theorem roundSignificant_mono (h : n ≤ m) : roundSignificant n ≤ roundSignificant m := by
  by_cases hm : m < 2 ^ 53
  · rwa [roundSignificant_of_lt hm, roundSignificant_of_lt (h.trans_lt hm)]
  · have hm' := Nat.le_of_not_lt hm
    have hbounds := bounds_of_roundSignificant hm'
    by_cases hn : n < 2 ^ 53
    · rw [roundSignificant_of_lt hn]
      have hpow : 2 ^ 53 ≤ 2 ^ m.log2 := Nat.pow_le_pow_right (by decide) (le_log2_of_le hm')
      omega
    · have hn' := Nat.le_of_not_lt hn
      have hlog : n.log2 ≤ m.log2 := (Nat.le_log2 (by omega)).2 ((Nat.log2_self_le (by omega)).trans h)
      rcases Nat.lt_or_eq_of_le hlog with hlt | heq
      · calc roundSignificant n
          _ ≤ 2 ^ (n.log2 + 1) := (bounds_of_roundSignificant hn').2
          _ ≤ 2 ^ m.log2 := Nat.pow_le_pow_right (by decide) hlt
          _ ≤ roundSignificant m := hbounds.1
      · rw [roundSignificant_of_le hn', roundSignificant_of_le hm', heq]
        exact Nat.mul_le_mul_right _ (divHalfEven_mono h)

theorem roundSignificant_le (n : Nat) : 2 ^ 53 * roundSignificant n ≤ (2 ^ 53 + 1) * n := by
  by_cases h : n < 2 ^ 53
  · rw [roundSignificant_of_lt h]
    exact Nat.mul_le_mul_right _ (Nat.le_succ _)
  · have hn := Nat.le_of_not_lt h
    have hlog := le_log2_of_le hn
    have hstep : 2 ^ 52 * 2 ^ (n.log2 - 52) ≤ n := by
      rw [← Nat.pow_add, Nat.add_sub_cancel' (by omega)]
      exact Nat.log2_self_le (by omega)
    have herror := two_mul_divHalfEven_mul_le n (2 ^ (n.log2 - 52))
    rw [roundSignificant_of_le hn]
    omega

theorem roundSignificant_mul_two_pow (n k : Nat) :
    roundSignificant (n * 2 ^ k) = roundSignificant n * 2 ^ k := by
  have hpos := Nat.two_pow_pos k
  by_cases hbig : n * 2 ^ k < 2 ^ 53
  · have hn : n < 2 ^ 53 := (Nat.le_mul_of_pos_right n hpos).trans_lt hbig
    rw [roundSignificant_of_lt hbig, roundSignificant_of_lt hn]
  · have hbig' := Nat.le_of_not_lt hbig
    have hne : n ≠ 0 := by
      rintro rfl
      omega
    have hlog : (n * 2 ^ k).log2 = n.log2 + k := by
      apply (Nat.log2_eq_iff (Nat.mul_ne_zero hne hpos.ne')).2
      rw [Nat.pow_add, Nat.add_right_comm, Nat.pow_add]
      exact ⟨Nat.mul_le_mul_right _ (Nat.log2_self_le hne),
        Nat.mul_lt_mul_of_pos_right Nat.lt_log2_self hpos⟩
    have hlow := le_log2_of_le hbig'
    rw [roundSignificant_of_le hbig', hlog]
    by_cases hn : n < 2 ^ 53
    -- all digits are kept, and some of the last ones are zeros
    · have hsmall : n.log2 < 53 := (Nat.log2_lt hne).2 hn
      have hsplit : 2 ^ k = 2 ^ (52 - n.log2) * 2 ^ (n.log2 + k - 52) := by
        rw [← Nat.pow_add]
        congr 1
        omega
      rw [roundSignificant_of_lt hn, hsplit, ← Nat.mul_assoc,
        divHalfEven_mul_self _ (Nat.two_pow_pos _)]
    · have hn' := Nat.le_of_not_lt hn
      have hnlog := le_log2_of_le hn'
      have hsplit : 2 ^ (n.log2 + k - 52) = 2 ^ (n.log2 - 52) * 2 ^ k := by
        rw [← Nat.pow_add]
        congr 1
        omega
      rw [roundSignificant_of_le hn', hsplit, divHalfEven_mul_right _ _ hpos, Nat.mul_assoc]

end RoundSignificant

end TrafficMonitor.Decimal.Binary64
