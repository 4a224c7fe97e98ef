import TrafficMonitor.Power

namespace TrafficMonitor.Sketch

def bitLength (n : Nat) : Nat := if n = 0 then 0 else n.log2 + 1

theorem bitLength_le_iff {n k : Nat} : bitLength n ≤ k ↔ n < 2 ^ k := by
  by_cases h : n = 0
  · rw [bitLength, if_pos h, h]
    exact iff_of_true (Nat.zero_le k) (Nat.two_pow_pos k)
  · rw [bitLength, if_neg h]
    exact Nat.lt_iff_add_one_le.symm.trans (Nat.log2_lt h)

end TrafficMonitor.Sketch
