import TrafficMonitor.Rate.Ring
import TrafficMonitor.Time.Periodic

namespace TrafficMonitor.Rate

open Time

structure Ticker where
  ring : Ring
  timer : Periodic
  now : Nat
  running : Bool

namespace Ticker

def start (ring : Ring) : Ticker := ⟨ring, .start 0 ring.quantum, 0, true⟩

def poll (t : Ticker) : Ticker :=
  if t.running then
    match t.timer.fire? t.now with
    | none => t
    | some timer => { t with timer, ring := t.ring.advance }
  else t

def advance (t : Ticker) (elapsed : Duration) : Ticker :=
  { t with now := t.now + elapsed.nanoseconds }.poll

def cancel (t : Ticker) : Ticker := { t with running := false }

end Ticker

end TrafficMonitor.Rate
