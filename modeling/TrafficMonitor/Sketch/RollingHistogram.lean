import TrafficMonitor.Sketch.Histogram
import TrafficMonitor.Storage

/-!
A histogram in generations: values enter the current one, rotation retires it, and only so many
generations are kept. Summaries are taken over those that are held.
-/

namespace TrafficMonitor.Sketch

def Histogram.bytes : Nat := 96

structure RollingHistogram where
  capacity : Nat
  current : Histogram
  retired : List Histogram

namespace RollingHistogram

def create (limit digits capacity : Nat) : Except (Halt BoundsError) RollingHistogram :=
  match Scale.create limit digits with
  | .error e => .error (.refused e)
  | .ok scale =>
    match Storage.reserve Histogram.bytes (max capacity 1 - 1) with
    | .error fault => .error (.broken fault)
    | .ok () => .ok ⟨max capacity 1, .empty scale, []⟩

def mostGenerations : Nat := Storage.mostBytes / Histogram.bytes + 1

theorem create_of_error {limit digits : Nat} {e : BoundsError} (h : Scale.create limit digits = .error e)
    (capacity : Nat) : create limit digits capacity = .error (.refused e) := by
  rw [create, h]

theorem create_of_scale {limit digits : Nat} {s : Scale} (h : Scale.create limit digits = .ok s)
    (capacity : Nat) :
    create limit digits capacity =
      if capacity ≤ mostGenerations then .ok ⟨max capacity 1, .empty s, []⟩
      else .error (.broken .capacityTooLarge) := by
  have hroom : Histogram.bytes * (max capacity 1 - 1) ≤ Storage.mostBytes ↔
      capacity ≤ mostGenerations := by
    simp only [mostGenerations, Histogram.bytes, Storage.mostBytes]
    omega
  rw [create, h]
  by_cases hfits : capacity ≤ mostGenerations
  · rw [if_pos hfits, Storage.reserve, if_pos (hroom.2 hfits)]
  · rw [if_neg hfits, Storage.reserve, if_neg (mt hroom.1 hfits)]

def record (h : RollingHistogram) (value : Nat) : RollingHistogram :=
  { h with current := h.current.record value }

def rotate (h : RollingHistogram) : RollingHistogram :=
  let kept := if h.retired.length + 1 = h.capacity then h.retired.drop 1 else h.retired
  { h with
    current := .empty h.current.scale
    retired := if h.capacity ≤ 1 then [] else kept ++ [h.current] }

/-- The generations held, as one histogram. A retired one that reports a value out of reach is left
out. -/
def merge (h : RollingHistogram) : Histogram :=
  h.retired.foldl (fun merged other => (merged.merge? other).getD merged) h.current

def currentCount (h : RollingHistogram) : Nat := h.current.total

def held (h : RollingHistogram) : Nat := h.retired.length + 1

end RollingHistogram

structure Distribution where
  count : Nat
  min : Nat
  median : Nat
  mean : Float
  p99 : Nat
  max : Nat
  deviation : Float

namespace Distribution

def zero : Distribution := ⟨0, 0, 0, 0.0, 0, 0, 0.0⟩

def ofHistogram (h : Histogram) : Distribution :=
  if h.total = 0 then zero
  else
    { count := h.total
      min := h.min
      median := h.valueAt .half
      mean := h.mean
      p99 := h.valueAt .percent99
      max := h.max
      deviation := h.deviation }

end Distribution

end TrafficMonitor.Sketch
