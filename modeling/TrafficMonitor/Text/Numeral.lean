import TrafficMonitor.Power

namespace TrafficMonitor.Text.Numeral

def digitValue (c : Char) : Nat := c.toNat - '0'.toNat

def value (ds : List Char) : Nat := ds.foldl (fun n c => 10 * n + digitValue c) 0

def ofDigits? (cs : List Char) : Option Nat :=
  if cs.isEmpty || !cs.all Char.isDigit then none else some (value cs)

def ofDigitsUpTo? (limit : Nat) (cs : List Char) : Option Nat :=
  (ofDigits? cs).filter (· ≤ limit)

def padded (width n : Nat) : String :=
  let digits := Nat.toDigits 10 n
  String.ofList (List.replicate (width - digits.length) '0' ++ digits)

def maxWord : Nat := 2 ^ 64 - 1

theorem value_lt {ds : List Char} (h : ∀ c ∈ ds, c.isDigit = true) : value ds < 10 ^ ds.length := by
  induction ds with
  | nil => decide
  | cons c ds ih =>
    have hdigit := Char.isDigit_iff_toNat.1 (h c List.mem_cons_self)
    have hc : c.toNat - '0'.toNat + 1 ≤ 10 := by
      have : '9'.toNat = 57 := rfl
      have : '0'.toNat = 48 := rfl
      omega
    have hds : value ds < 10 ^ ds.length := ih fun d hd => h d (List.mem_cons_of_mem c hd)
    have hcons : value (c :: ds) = 10 ^ ds.length * (c.toNat - '0'.toNat) + value ds := by
      change Nat.ofDigitChars 10 (c :: ds) 0 = _
      rw [Nat.ofDigitChars_cons, Nat.ofDigitChars_eq_ofDigitChars_zero, Nat.mul_zero, Nat.zero_add]
      rfl
    calc value (c :: ds)
        < 10 ^ ds.length * (c.toNat - '0'.toNat) + 10 ^ ds.length := by omega
      _ = 10 ^ ds.length * (c.toNat - '0'.toNat + 1) := (Nat.mul_succ _ _).symm
      _ ≤ 10 ^ ds.length * 10 := Nat.mul_le_mul_left _ hc
      _ = 10 ^ (c :: ds).length := (Nat.pow_succ ..).symm

theorem value_replicate_zero_append (k : Nat) (ds : List Char) :
    value (List.replicate k '0' ++ ds) = value ds := by
  induction k with
  | zero => rfl
  | succ k ih => exact ih

@[simp]
theorem value_padded (width n : Nat) : value (padded width n).toList = n := by
  simp only [padded, String.toList_ofList, value_replicate_zero_append]
  exact Nat.ofDigitChars_ten_toDigits

theorem isDigit_of_mem_padded {width n : Nat} {c : Char} (h : c ∈ (padded width n).toList) :
    c.isDigit = true := by
  simp only [padded, String.toList_ofList, List.mem_append, List.mem_replicate] at h
  rcases h with ⟨-, rfl⟩ | h
  · rfl
  · exact Nat.isDigit_of_mem_toDigits (by decide) (by decide) h

theorem length_padded {width n : Nat} (hw : 0 < width) (hn : n < 10 ^ width) :
    (padded width n).toList.length = width := by
  have hlen := (Nat.length_toDigits_le_iff (by decide) hw).2 hn
  simp only [padded, String.toList_ofList, List.length_append, List.length_replicate]
  omega

section ToString

variable (n : Nat)

theorem toList_toString : (toString n).toList = Nat.toDigits 10 n := Nat.toList_repr

theorem isDigit_of_mem_toString {n : Nat} {c : Char} (h : c ∈ (toString n).toList) : c.isDigit = true := by
  rw [toList_toString] at h
  exact Nat.isDigit_of_mem_toDigits (by decide) (by decide) h

theorem toString_ne_nil : (toString n).toList ≠ [] := by
  rw [toList_toString]
  exact Nat.toDigits_ne_nil

theorem value_toDigits : value (Nat.toDigits 10 n) = n := Nat.ofDigitChars_ten_toDigits

theorem value_toString : value (toString n).toList = n := by
  rw [toList_toString, value_toDigits]

theorem ofDigits?_toString : ofDigits? (toString n).toList = some n := by
  have hdigits : (toString n).toList.all Char.isDigit = true :=
    List.all_eq_true.2 fun c hc => isDigit_of_mem_toString hc
  rw [ofDigits?, hdigits, List.isEmpty_eq_false_iff.2 (toString_ne_nil n), value_toString]
  rfl

end ToString

end TrafficMonitor.Text.Numeral
