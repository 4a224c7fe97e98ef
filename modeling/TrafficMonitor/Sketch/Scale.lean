import TrafficMonitor.Sketch.BitLength
import TrafficMonitor.Text.Numeral

/-!
A scale of slots for values up to a limit. Small values have a slot each; above them slots widen
with the value, so that a slot fixes a given number of significant decimal digits. A bucket is a run
of slots of one width, a power of two.
-/

namespace TrafficMonitor.Sketch

open Text

inductive BoundsError where
  | limitTooLow
  | tooManyDigits
  deriving DecidableEq, Repr

def BoundsError.message : BoundsError → String
  | .limitTooLow =>
    "Highest trackable value must be >= 2 * lowest discernible value for some internal calculations"
  | .tooManyDigits => "Number of significant digits must be in the range `[0, 5]`"

structure Scale where
  limit : Nat
  digits : Nat
  two_le_limit : 2 ≤ limit
  digits_le_five : digits ≤ 5

namespace Scale

def create (limit digits : Nat) : Except BoundsError Scale :=
  if hl : 2 ≤ limit then
    if hd : digits ≤ 5 then .ok ⟨limit, digits, hl, hd⟩ else .error .tooManyDigits
  else .error .limitTooLow

def magnitude (s : Scale) : Nat := bitLength (2 * 10 ^ s.digits - 1)

def half (s : Scale) : Nat := 2 ^ (s.magnitude - 1)

def bucketOf (s : Scale) (value : Nat) : Nat := max (bitLength value) s.magnitude - s.magnitude

def slotOf (s : Scale) (value : Nat) : Nat :=
  let bucket := s.bucketOf value
  bucket * s.half + value / 2 ^ bucket

def slotValue (s : Scale) (slot : Nat) : Nat :=
  if slot < s.half then slot else (slot % s.half + s.half) * 2 ^ (slot / s.half - 1)

def covers (s : Scale) (value : Nat) : Bool := bitLength value ≤ max (bitLength s.limit) s.magnitude

def clamp (s : Scale) (value : Nat) : Nat := if s.covers value then value else s.limit

/-- The greatest value that the last slot stands for. The last 64-bit value is beyond every slot. -/
def reach (s : Scale) : Nat :=
  min (2 ^ (s.magnitude + s.bucketOf s.limit)) Numeral.maxWord - 1

def lowest (s : Scale) (value : Nat) : Nat :=
  let width := 2 ^ s.bucketOf value
  value / width * width

def least (s : Scale) (value : Nat) : Nat :=
  if value = Numeral.maxWord then value else s.lowest value

def highest (s : Scale) (value : Nat) : Nat :=
  if value = Numeral.maxWord then value
  else min (s.lowest value + 2 ^ s.bucketOf value) Numeral.maxWord - 1

def middle (s : Scale) (value : Nat) : Nat :=
  min (s.lowest value + 2 ^ s.bucketOf value / 2) Numeral.maxWord

end Scale

end TrafficMonitor.Sketch
