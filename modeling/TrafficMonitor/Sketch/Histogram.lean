import Std.Data.TreeMap
import TrafficMonitor.Decimal.Binary64
import TrafficMonitor.Sketch.Scale

/-!
A histogram of values over a scale: a count for each slot that holds one, and the least and the
greatest value seen.
-/

namespace TrafficMonitor.Sketch

open Decimal Text

structure Histogram where
  scale : Scale
  counts : Std.TreeMap Nat Nat
  total : Nat
  largest : Nat
  smallest : Option Nat

namespace Histogram

def empty (scale : Scale) : Histogram := ⟨scale, ∅, 0, 0, none⟩

def lesser (bound : Option Nat) (value : Nat) : Nat := (bound.map (min · value)).getD value

def record (h : Histogram) (value : Nat) : Histogram :=
  let value := h.scale.clamp value
  let slot := h.scale.slotOf value
  { h with
    counts := h.counts.insert slot (h.counts.getD slot 0 + 1)
    total := h.total + 1
    largest := max h.largest value
    smallest := if value = 0 then h.smallest else some (lesser h.smallest value) }

def max (h : Histogram) : Nat := if h.largest = 0 then 0 else h.scale.highest h.largest

def minPositive (h : Histogram) : Option Nat := h.smallest.map h.scale.least

def min (h : Histogram) : Nat :=
  if h.total = 0 ∨ h.counts.contains 0 then 0 else h.minPositive.getD 0

/-- The counts of both histograms together, `none` if the second reports a value out of reach. The
bounds of the second enter as it reports them. -/
def merge? (h other : Histogram) : Option Histogram :=
  if h.scale.reach < other.max then none
  else some { h with
    counts := other.counts.foldl (fun counts slot n => counts.insert slot (counts.getD slot 0 + n))
      h.counts
    total := h.total + other.total
    largest := if h.max < other.max then other.max else h.largest
    smallest :=
      match h.minPositive, other.minPositive with
      | some mine, some theirs => if theirs < mine then some theirs else h.smallest
      | none, some theirs => some theirs
      | _, none => h.smallest }

def slots (h : Histogram) : List (Nat × Nat) := h.counts.toList

structure Quantile where
  significand : Nat
  places : Nat
  le_one : significand ≤ 2 ^ places
  deriving DecidableEq, Repr

def Quantile.half : Quantile := ⟨1, 1, by decide⟩

def Quantile.percent99 : Quantile := ⟨8917127262193582, 53, by decide⟩

def Quantile.rank (q : Quantile) (total : Nat) : Nat :=
  let product := Binary64.roundSignificant (q.significand * Binary64.roundSignificant total)
  Max.max ((product + (2 ^ q.places - 1)) / 2 ^ q.places) 1

def slotAt? (rank : Nat) : Nat → List (Nat × Nat) → Option Nat
  | _, [] => none
  | seen, (slot, n) :: rest =>
    if rank ≤ seen + n then some slot else slotAt? rank (seen + n) rest

def valueAt (h : Histogram) (q : Quantile) : Nat :=
  match slotAt? (q.rank h.total) 0 h.slots with
  | none => 0
  | some slot =>
    let value := h.scale.slotValue slot
    if q.significand = 0 then h.scale.lowest value else h.scale.highest value

def representative (h : Histogram) (slot : Nat) : Float :=
  Binary64.ofCount (h.scale.middle (h.scale.highest (h.scale.slotValue slot)))

def mean (h : Histogram) : Float :=
  let total := Binary64.ofCount h.total
  if h.total = 0 then 0.0
  else h.slots.foldl (fun sum (slot, n) =>
    sum + h.representative slot * Binary64.ofCount n / total) 0.0

def deviation (h : Histogram) : Float :=
  let mean := h.mean
  if h.total = 0 then 0.0
  else
    let squares := h.slots.foldl (fun sum (slot, n) =>
      let distance := h.representative slot - mean
      sum + distance * distance * Binary64.ofCount n) 0.0
    Float.sqrt (squares / Binary64.ofCount h.total)

end Histogram

end TrafficMonitor.Sketch
