import TrafficMonitor.Time.Instant

/-!
A ring of hit counters, one for each quantum of a sliding window and one for the quantum in
progress. Averages are taken over the completed quanta that have been observed.
-/

namespace TrafficMonitor.Rate

open Time Text

def maxQuanta : Nat := 2 ^ 20

def longestWindow : Duration := .ofMillis (2 ^ 63 - 1)

def slotCount? (window quantum : Duration) : Option Nat :=
  if quantum.isZero || window.nanoseconds < quantum.nanoseconds then none
  else
    let count := window.nanoseconds / quantum.nanoseconds
    if count ≤ maxQuanta then some count else none

/-- The counters in a circle, the cursor at the quantum in progress. A slot is empty until its
quantum has been observed. -/
structure Ring where
  window : Duration
  quantum : Duration
  slots : Array (Option Nat)
  cursor : Nat
  cursor_lt : cursor < slots.size

namespace Ring

def create? (window quantum : Duration) : Option Ring :=
  match slotCount? window quantum with
  | none => none
  | some count =>
    if longestWindow.nanoseconds < window.nanoseconds then none
    else some
      { window, quantum
        slots := Array.replicate (count + 1) none
        cursor := 0
        cursor_lt := by simp }

def size (r : Ring) : Nat := r.slots.size

theorem size_pos (r : Ring) : 0 < r.slots.size := Nat.lt_of_le_of_lt (Nat.zero_le _) r.cursor_lt

def current (r : Ring) : Option Nat := r.slots[(⟨r.cursor, r.cursor_lt⟩ : Fin r.slots.size)]

def setCurrent (r : Ring) (count : Nat) : Ring :=
  { r with
    slots := r.slots.set r.cursor (some count) r.cursor_lt
    cursor_lt := by simpa using r.cursor_lt }

def advance (r : Ring) : Ring :=
  let next := (r.cursor + 1) % r.slots.size
  have next_lt : next < r.slots.size := Nat.mod_lt _ r.size_pos
  { r with
    slots := r.slots.set next (some 0) next_lt
    cursor := next
    cursor_lt := by simpa using next_lt }

/-- Counts a hit unless it lies before the window that ends now. The flag tells whether it
counted; a full counter stays as it is. -/
def record (r : Ring) (hit now : Instant) : Except Fault (Bool × Ring) :=
  match now.minus? r.window with
  | none => .error .beforeEarliest
  | some start =>
    if hit.before start then .ok (false, r)
    else .ok (true, r.setCurrent (min (r.current.getD 0 + 1) Numeral.maxWord))

def completed (r : Ring) : List (Option Nat) :=
  let slots := r.slots.toList
  slots.drop (r.cursor + 1) ++ slots.take r.cursor

def average (r : Ring) : Option Float :=
  let counts := r.completed.filterMap id
  if counts.isEmpty then none
  else
    let sum := Decimal.Binary64.ofCount (min (counts.foldr (· + ·) 0) Numeral.maxWord)
    some (sum / (Decimal.Binary64.ofCount counts.length * r.quantum.seconds))

def latest (r : Ring) : Nat :=
  ((r.slots[(r.cursor + r.slots.size - 1) % r.slots.size]?).join).getD 0

def hasData (r : Ring) : Bool := r.slots.any Option.isSome

@[simp] theorem slots_size_setCurrent (r : Ring) (count : Nat) :
    (r.setCurrent count).slots.size = r.slots.size := by
  simp [setCurrent]

@[simp] theorem slots_size_advance (r : Ring) : r.advance.slots.size = r.slots.size := by
  simp [advance]

end Ring

end TrafficMonitor.Rate
