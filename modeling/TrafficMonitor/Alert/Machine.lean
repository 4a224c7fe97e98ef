import TrafficMonitor.Decimal.Fixed
import TrafficMonitor.Time.Instant

/-!
The alert machine: two states over the readings of the mean hit rate. It reports each crossing of
the threshold once, and a missing reading or one that is no number changes nothing.
-/

namespace TrafficMonitor.Alert

open Time

structure Crossing where
  recovered : Bool
  average : Float
  time : Instant

def Crossing.text (a : Crossing) : String :=
  let average := Decimal.Fixed.render 2 a.average
  if a.recovered then
    "Traffic recovered - hits = " ++ average ++ ", recovered at " ++ a.time.longText
  else
    "High traffic generated an alert - hits = " ++ average ++ ", triggered at " ++ a.time.longText

inductive Status where
  | normal
  | alerting
  deriving DecidableEq, Repr

structure Machine where
  status : Status
  threshold : Float

namespace Machine

def initial (threshold : Float) : Machine := ⟨.normal, threshold⟩

def isAlerting (m : Machine) : Bool := m.status == .alerting

def evaluate (m : Machine) (reading : Option Float) (time : Instant) : Option Crossing × Machine :=
  match reading with
  | none => (none, m)
  | some average =>
    match m.status with
    | .normal =>
      if average > m.threshold then
        (some ⟨false, average, time⟩, { m with status := .alerting })
      else (none, m)
    | .alerting =>
      if average ≤ m.threshold then
        (some ⟨true, average, time⟩, { m with status := .normal })
      else (none, m)

end Machine

end TrafficMonitor.Alert
