import TrafficMonitor.Sketch.CountMin
import TrafficMonitor.Sketch.SipHash
import TrafficMonitor.Storage

/-!
The most frequent keys of a stream: a count-min sketch of all keys, and a bounded list of the keys
with the highest estimates.
-/

namespace TrafficMonitor.Sketch

structure Element where
  key : String
  freq : Nat
  deriving DecidableEq, Repr

structure TopK where
  capacity : Nat
  sketch : CountMin String
  candidates : List Element

def Element.bytes : Nat := 32

namespace TopK

def empty (sketch : CountMin String) (capacity : Nat) : TopK := ⟨capacity, sketch, []⟩

def create (epsilon confidence : Float) (capacity : Nat) : Except StorageFault TopK :=
  -- the rows depend on nothing but the two rates, and are taken to find room
  if Text.Numeral.maxWord < capacity + 1 then .error .sumTooLarge
  else
    (Storage.reserve Element.bytes (capacity + 1)).map fun _ =>
      empty (.empty (CountMin.widthFor epsilon) (CountMin.depthFor confidence) SipHash.hashText)
        capacity

def mostCandidates : Nat := Storage.mostBytes / Element.bytes - 1

theorem create_eq (epsilon confidence : Float) (capacity : Nat) :
    create epsilon confidence capacity =
      if capacity ≤ mostCandidates then
        .ok (empty (.empty (CountMin.widthFor epsilon) (CountMin.depthFor confidence) SipHash.hashText)
          capacity)
      else if capacity < Text.Numeral.maxWord then .error .capacityTooLarge
      else .error .sumTooLarge := by
  have hroom : Element.bytes * (capacity + 1) ≤ Storage.mostBytes ↔ capacity ≤ mostCandidates := by
    simp only [mostCandidates, Element.bytes, Storage.mostBytes]
    omega
  have hmost : mostCandidates < Text.Numeral.maxWord := by decide
  by_cases hword : capacity < Text.Numeral.maxWord
  · rw [create, if_neg (by omega), Storage.reserve]
    simp only [hroom, if_pos hword]
    split <;> rfl
  · rw [create, if_pos (by omega), if_neg (by omega), if_neg hword]

theorem eq_empty_of_create {epsilon confidence : Float} {capacity : Nat} {t : TopK}
    (h : create epsilon confidence capacity = .ok t) :
    t = empty (.empty (CountMin.widthFor epsilon) (CountMin.depthFor confidence) SipHash.hashText)
      capacity := by
  rw [create_eq] at h
  split at h
  case isTrue => exact (Except.ok.inj h).symm
  case isFalse => split at h <;> cases h

def replaceFirst (p : Element → Bool) (new : Element) : List Element → List Element
  | [] => []
  | e :: es => if p e then new :: es else e :: replaceFirst p new es

def lowest? (candidates : List Element) : Option Nat := (candidates.map Element.freq).min?

/-- The candidates after a key was added: its frequency is renewed if it is one of them; else it
takes a free place, or that of the first weakest candidate if it is more frequent. -/
def enrol (capacity : Nat) (new : Element) (candidates : List Element) : List Element :=
  if candidates.any (·.key == new.key) then replaceFirst (·.key == new.key) new candidates
  else if candidates.length < capacity then candidates ++ [new]
  else
    match lowest? candidates with
    | none => candidates
    | some lowest =>
      if lowest < new.freq then replaceFirst (·.freq == lowest) new candidates else candidates

def add (t : TopK) (key : String) : TopK :=
  let (estimate, sketch) := t.sketch.add key
  { t with sketch, candidates := enrol t.capacity ⟨key, estimate⟩ t.candidates }

def estimate (t : TopK) (key : String) : Nat := t.sketch.estimate key

def ranksBefore (a b : Element) : Bool :=
  b.freq < a.freq || (a.freq == b.freq && a.key ≤ b.key)

def elements (t : TopK) : List Element := t.candidates.mergeSort ranksBefore

end TopK

end TrafficMonitor.Sketch
