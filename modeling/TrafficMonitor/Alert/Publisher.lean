import TrafficMonitor.Alert.Machine
import TrafficMonitor.Report.Sink
import TrafficMonitor.Time.Periodic

/-!
Publication of alerts: each goes to the sink and is offered to a hook. Neither is waited for, and
neither can hold up or change the machine.
-/

namespace TrafficMonitor.Alert

open Time Report

structure Hook where
  capacity : Nat
  waiting : List Crossing
  listening : Bool

namespace Hook

def create (capacity : Nat) : Hook := ⟨capacity, [], true⟩

/-- Offers an alert: a full queue drops it, and without a listener the hook is given up. -/
def offer (h : Hook) (alert : Crossing) : Option Hook :=
  if !h.listening then none
  else if h.waiting.length < h.capacity then some { h with waiting := h.waiting ++ [alert] }
  else some h

def receive (h : Hook) : Option Crossing × Hook := (h.waiting.head?, { h with waiting := h.waiting.tail })

def close (h : Hook) : Hook := { h with waiting := [], listening := false }

end Hook

structure Publisher where
  machine : Machine
  sink : Sink
  hook : Option Hook

namespace Publisher

def create (threshold : Float) (hook : Option Hook) : Publisher :=
  ⟨.initial threshold, .empty, hook⟩

def publish (p : Publisher) (alert : Crossing) : Publisher :=
  { p with sink := p.sink.writeLine alert.text, hook := p.hook.bind (·.offer alert) }

def check (p : Publisher) (average : Option Float) (now : Instant) : Option Crossing × Publisher :=
  match p.machine.evaluate average now with
  | (none, machine) => (none, { p with machine })
  | (some alert, machine) => (some alert, { p with machine }.publish alert)

end Publisher

structure Watch where
  publisher : Publisher
  timer : Periodic
  now : Nat
  running : Bool

namespace Watch

def start (publisher : Publisher) (interval : Duration) : Watch :=
  ⟨publisher, .start 0 interval, 0, true⟩

def poll (w : Watch) (average : Option Float) (time : Instant) : Watch :=
  if w.running then
    match w.timer.fire? w.now with
    | none => w
    | some timer => { w with timer, publisher := (w.publisher.check average time).2 }
  else w

def advance (w : Watch) (elapsed : Duration) (average : Option Float) (time : Instant) : Watch :=
  { w with now := w.now + elapsed.nanoseconds }.poll average time

def cancel (w : Watch) : Watch := { w with running := false }

end Watch

end TrafficMonitor.Alert
