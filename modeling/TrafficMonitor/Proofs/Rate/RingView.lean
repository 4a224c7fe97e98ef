import TrafficMonitor.Rate.Ring

/-! The ring seen from its cursor: the slot of each quantum by how long ago the quantum was. -/

namespace TrafficMonitor.Rate

open Time

theorem slotCount?_eq_some_iff {window quantum : Duration} {n : Nat} :
    slotCount? window quantum = some n ↔
      0 < quantum.nanoseconds ∧ quantum.nanoseconds ≤ window.nanoseconds ∧ n ≤ maxQuanta ∧
        n = window.nanoseconds / quantum.nanoseconds := by
  simp only [slotCount?, Duration.isZero, Bool.or_eq_true, beq_iff_eq, decide_eq_true_eq]
  split
  case isTrue h =>
    constructor
    · intro hn
      cases hn
    · intro hn
      omega
  case isFalse h =>
    split
    case isTrue hc =>
      rw [Option.some.injEq]
      constructor
      · rintro rfl
        exact ⟨by omega, by omega, hc, rfl⟩
      · intro hn
        exact hn.2.2.2.symm
    case isFalse hc =>
      constructor
      · intro hn
        cases hn
      · rintro ⟨_, _, hle, rfl⟩
        exact (hc hle).elim

namespace Ring

theorem create?_eq_some {window quantum : Duration} {r : Ring}
    (h : create? window quantum = some r) :
    ∃ n, slotCount? window quantum = some n ∧ r.window = window ∧ r.quantum = quantum ∧
      r.slots = Array.replicate (n + 1) none ∧ r.cursor = 0 := by
  rw [create?] at h
  cases hn : slotCount? window quantum with
  | none => simp [hn] at h
  | some n =>
    simp only [hn] at h
    split at h
    · cases h
    · cases h
      exact ⟨n, rfl, rfl, rfl, rfl, rfl⟩

def position (r : Ring) (k : Nat) : Nat :=
  if k ≤ r.cursor then r.cursor - k else r.cursor + r.slots.size - k

def ago (r : Ring) (k : Nat) : Option Nat := (r.slots[r.position k]?).join

theorem position_lt {r : Ring} {k : Nat} (hk : k < r.slots.size) : r.position k < r.slots.size := by
  have hc := r.cursor_lt
  rw [position]
  split <;> omega

theorem next_eq (r : Ring) :
    (r.cursor + 1) % r.slots.size = if r.cursor + 1 < r.slots.size then r.cursor + 1 else 0 := by
  have hc := r.cursor_lt
  split
  case isTrue h => exact Nat.mod_eq_of_lt h
  case isFalse h =>
    have he : r.cursor + 1 = r.slots.size := by omega
    rw [he, Nat.mod_self]

theorem previous_eq {r : Ring} (hs : 1 < r.slots.size) :
    (r.cursor + r.slots.size - 1) % r.slots.size = r.position 1 := by
  have hc := r.cursor_lt
  rw [position]
  split
  case isTrue h =>
    have he : r.cursor + r.slots.size - 1 = r.cursor - 1 + r.slots.size := by omega
    rw [he, Nat.add_mod_right, Nat.mod_eq_of_lt (by omega)]
  case isFalse h => exact Nat.mod_eq_of_lt (by omega)

theorem current_eq (r : Ring) : r.current = r.ago 0 := by
  simp [current, ago, position, Array.getElem?_eq_getElem r.cursor_lt]

theorem latest_eq {r : Ring} (hs : 1 < r.slots.size) : r.latest = (r.ago 1).getD 0 := by
  rw [latest, previous_eq hs, ago]

theorem ago_setCurrent_zero (r : Ring) (n : Nat) : (r.setCurrent n).ago 0 = some n := by
  simp [ago, position, setCurrent]

theorem ago_setCurrent_of_pos {r : Ring} {k : Nat} (n : Nat) (hk : 0 < k) (hs : k < r.slots.size) :
    (r.setCurrent n).ago k = r.ago k := by
  have hp : r.cursor ≠ r.position k := by
    rw [position]
    split <;> omega
  have he : (r.setCurrent n).position k = r.position k := by simp [position, setCurrent]
  rw [ago, he, ago, setCurrent, Array.getElem?_set_ne r.cursor_lt hp]

theorem ago_advance_zero (r : Ring) : r.advance.ago 0 = some 0 := by
  simp [ago, position, advance]

theorem ago_advance_succ {r : Ring} {k : Nat} (hk : k + 1 < r.slots.size) :
    r.advance.ago (k + 1) = r.ago k := by
  have hc := r.cursor_lt
  have hn := r.next_eq
  have he : r.advance.position (k + 1) = r.position k := by
    simp only [position, advance, Array.size_set]
    rw [hn]
    split <;> split <;> split <;> omega
  have hp : (r.cursor + 1) % r.slots.size ≠ r.position k := by
    rw [hn]
    rw [position]
    split <;> split <;> omega
  rw [ago, he, ago, advance, Array.getElem?_set_ne _ hp]

theorem completed_length (r : Ring) : r.completed.length = r.slots.size - 1 := by
  have hc := r.cursor_lt
  simp only [completed, List.length_append, List.length_drop, List.length_take, Array.length_toList]
  omega

theorem completed_eq (r : Ring) :
    r.completed = (List.range (r.slots.size - 1)).map fun j => r.ago (r.slots.size - 1 - j) := by
  have hc := r.cursor_lt
  apply List.ext_getElem
  · simp [completed_length]
  · intro j hj _
    rw [completed_length] at hj
    have hp := position_lt (r := r) (k := r.slots.size - 1 - j) (by omega)
    simp only [List.getElem_map, List.getElem_range, ago, Array.getElem?_eq_getElem hp,
      Option.join_some, completed]
    by_cases hw : j < r.slots.size - (r.cursor + 1)
    · rw [List.getElem_append_left (by simpa using hw)]
      simp only [List.getElem_drop, Array.getElem_toList]
      congr 1
      rw [position]
      split <;> omega
    · rw [List.getElem_append_right (by simpa using hw)]
      simp only [List.getElem_take, Array.getElem_toList, List.length_drop, Array.length_toList]
      congr 1
      rw [position]
      split <;> omega

end Ring

end TrafficMonitor.Rate
