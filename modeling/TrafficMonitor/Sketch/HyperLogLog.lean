import TrafficMonitor.Decimal.Binary64
import TrafficMonitor.Sketch.SipHash

/-!
The HyperLogLog estimate of the number of distinct keys. The leading bits of a key's hash choose a
register, which holds the highest rank of the remaining bits it was given.
-/

namespace TrafficMonitor.Sketch

open Decimal

structure HyperLogLog (κ : Type) where
  precision : Nat
  hash : κ → UInt64
  registers : Array Nat

namespace HyperLogLog

variable {κ : Type}

def leastPrecision : Nat := 4

def greatestPrecision : Nat := 18

def empty (precision : Nat) (hash : κ → UInt64) : HyperLogLog κ :=
  let precision := max leastPrecision (min precision greatestPrecision)
  { precision, hash, registers := Array.replicate (2 ^ precision) 0 }

def precisionFor (errorRate : Float) : Nat :=
  let root := 1.04 / errorRate
  (Float.log2 (root * root)).ceil.toUInt64.toNat

def register (precision : Nat) (h : UInt64) : Nat := (h >>> (64 - precision).toUInt64).toNat

/-- One more than the number of leading zeros of the bits behind the leading ones. These are moved to
the front of the word, and if all of them are zero so is what follows: hence the bound. -/
def rank (precision : Nat) (h : UInt64) : Nat :=
  let rest := h <<< precision.toUInt64
  min (rest.toBitVec.clz.toNat + 1).toUInt8.toNat (65 - precision)

def add (s : HyperLogLog κ) (key : κ) : HyperLogLog κ :=
  let h := s.hash key
  { s with registers := s.registers.modify (register s.precision h) (max · (rank s.precision h)) }

def alpha (m : Nat) : Float :=
  if m = 16 then 0.673
  else if m = 32 then 0.697
  else if m = 64 then 0.709
  else 0.7213 / (1.0 + 1.079 / Binary64.ofCount m)

def indicator (registers : Array Nat) : Float :=
  registers.foldl (fun sum r => sum + 1.0 / Binary64.ofCount (2 ^ r)) 0.0

def nearest (x : Float) : Nat := x.round.toUInt64.toNat

def count (s : HyperLogLog κ) : Nat :=
  let m := Binary64.ofCount s.registers.size
  let raw := alpha s.registers.size * m * m / indicator s.registers
  let zeros := s.registers.toList.count 0
  if raw ≤ 2.5 * m ∧ 0 < zeros then nearest (m * Float.log (m / Binary64.ofCount zeros))
  else nearest raw

end HyperLogLog

end TrafficMonitor.Sketch
