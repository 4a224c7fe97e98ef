import TrafficMonitor.Time.Duration

/-!
A timer that fires at the multiples of its period. Multiples that went by unnoticed are not made up
for: the timer fires once and waits for the next multiple.
-/

namespace TrafficMonitor.Time

structure Periodic where
  period : Nat
  next : Nat
  deriving DecidableEq, Repr

namespace Periodic

def start (now : Nat) (period : Duration) : Periodic :=
  ⟨period.nanoseconds, now + period.nanoseconds⟩

def isDue (p : Periodic) (now : Nat) : Bool := 0 < p.period && p.next ≤ now

def restart (p : Periodic) (now : Nat) : Periodic :=
  { p with next := p.next + ((now - p.next) / p.period + 1) * p.period }

def fire? (p : Periodic) (now : Nat) : Option Periodic :=
  if p.isDue now then some (p.restart now) else none

end Periodic

end TrafficMonitor.Time
