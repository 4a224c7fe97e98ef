import TrafficMonitor.Time.Civil
import TrafficMonitor.Time.Duration

/-!
Points in time: seconds of the POSIX time scale and nanoseconds. A leap second is the second before
it with a further thousand million nanoseconds, so that instants are ordered by their fields.
-/

namespace TrafficMonitor.Time

structure Instant where
  seconds : Int
  nanos : Nat
  deriving DecidableEq, Repr, Inhabited

namespace Instant

open Text

def before (a b : Instant) : Bool :=
  a.seconds < b.seconds || (a.seconds == b.seconds && a.nanos < b.nanos)

def earliestSecond : Int := -8334601228800

/-- The instant `d` before `t`, if it is in range. Only a step within a leap second stays in it. -/
def minus? (t : Instant) (d : Duration) : Option Instant :=
  let nanosPerSecond := Duration.nanosPerSecond
  if nanosPerSecond ≤ t.nanos && d.nanoseconds < nanosPerSecond then
    some { t with nanos := t.nanos - d.nanoseconds }
  else
    let total := t.seconds * nanosPerSecond + t.nanos - d.nanoseconds
    let seconds := total / (nanosPerSecond : Int)
    if seconds < earliestSecond then none
    else some ⟨seconds, (total % (nanosPerSecond : Int)).toNat⟩

def dateAndSecond (t : Instant) : Civil × Nat :=
  (Civil.ofDays (t.seconds / 86400), (t.seconds % 86400).toNat)

def clockText (secondOfDay : Nat) (leap : Bool) : String :=
  let two := Numeral.padded 2
  two (secondOfDay / 3600) ++ ":" ++ two (secondOfDay / 60 % 60) ++ ":" ++
    two (secondOfDay % 60 + if leap then 1 else 0)

def longText (t : Instant) : String :=
  let (date, second) := t.dateAndSecond
  Civil.yearText date.year ++ "-" ++ Numeral.padded 2 date.month ++ "-" ++
    Numeral.padded 2 date.day ++ " " ++
    clockText second (Duration.nanosPerSecond ≤ t.nanos) ++ " +0000"

def shortText (t : Instant) : String :=
  let (date, second) := t.dateAndSecond
  Numeral.padded 2 date.month ++ "/" ++ Numeral.padded 2 date.day ++ "/" ++
    Numeral.padded 2 (date.year % 100).toNat ++ " " ++
    clockText second (Duration.nanosPerSecond ≤ t.nanos)

end Instant

structure ZonedInstant where
  instant : Instant
  offsetSeconds : Int
  deriving DecidableEq, Repr

inductive Fault where
  | beforeEarliest
  deriving DecidableEq, Repr

def Fault.message : Fault → String
  | .beforeEarliest => "`DateTime - TimeDelta` overflowed"

end TrafficMonitor.Time
