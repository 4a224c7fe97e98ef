import Mathlib.Algebra.Order.Group.Nat
import Mathlib.Order.Bounds.Basic
import TrafficMonitor.Time.Periodic

namespace TrafficMonitor.Time.Periodic

variable {p : Periodic} {q now later : Nat}

structure Awaits (p : Periodic) (q now : Nat) : Prop where
  period_eq : p.period = q
  next_eq : p.next = (now / q + 1) * q

theorem awaits_start (period : Duration) : (start 0 period).Awaits period.nanoseconds 0 where
  period_eq := rfl
  next_eq := by simp [start]

theorem Awaits.dvd_next (h : p.Awaits q now) : q ∣ p.next := ⟨now / q + 1, by rw [h.next_eq, Nat.mul_comm]⟩

theorem Awaits.isLeast_next (h : p.Awaits q now) (hq : 0 < q) :
    IsLeast {m | q ∣ m ∧ now < m} p.next := by
  constructor
  · refine ⟨h.dvd_next, ?_⟩
    rw [h.next_eq]
    exact Nat.lt_mul_of_div_lt (Nat.lt_succ_self _) hq
  · rintro m ⟨⟨n, rfl⟩, hlt⟩
    rw [h.next_eq, Nat.mul_comm q n]
    exact Nat.mul_le_mul_right q (Nat.div_lt_of_lt_mul hlt)

theorem Awaits.isDue_eq (h : p.Awaits q now) (hq : 0 < q) :
    p.isDue later = decide (now / q < later / q) := by
  have hle : (now / q + 1) * q ≤ later ↔ now / q < later / q := (Nat.le_div_iff_mul_le hq).symm
  simp only [isDue, h.period_eq, h.next_eq, hq, decide_true, Bool.true_and, decide_eq_decide]
  exact hle

theorem Awaits.restart (h : p.Awaits q now) (hle : now / q < later / q) :
    (p.restart later).Awaits q later where
  period_eq := h.period_eq
  next_eq := by
    have hdiv : (later - (now / q + 1) * q) / q = later / q - (now / q + 1) := by
      rw [Nat.mul_comm]
      exact Nat.sub_mul_div later q (now / q + 1)
    simp only [Periodic.restart, h.period_eq, h.next_eq, hdiv, ← Nat.add_mul]
    congr 1
    omega

theorem Awaits.of_div_eq (h : p.Awaits q now) (heq : now / q = later / q) : p.Awaits q later where
  period_eq := h.period_eq
  next_eq := heq ▸ h.next_eq

end TrafficMonitor.Time.Periodic
