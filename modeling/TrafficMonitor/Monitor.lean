import TrafficMonitor.Alert.Publisher
import TrafficMonitor.Collector
import TrafficMonitor.Follow.Tailer
import TrafficMonitor.Pipeline

/-!
The monitor: a tailer feeds the aggregates, and beside it timers complete the quanta of the hit rate,
write reports and check for alerts. All of it stops together; a report that cannot be laid out ends
the reports alone.
-/

namespace TrafficMonitor

open Time Follow

structure Monitor where
  settings : Settings
  collector : Collector
  tailer : Tailer
  hook : Option Alert.Hook

namespace Monitor

def create (settings : Settings) (target : Target) (hook : Option Alert.Hook) :
    Except (Halt Failure) Monitor := do
  settings.validate.mapError .refused
  let collector ← Collector.create settings
  let tailer ← (Tailer.create settings.file settings.lineBuffer target).mapError .refused
  .ok { settings, collector, tailer, hook }

def stop (m : Monitor) : Monitor := { m with tailer := m.tailer.cancel }

end Monitor

inductive Chore where
  | tick
  | report
  | check
  deriving DecidableEq, Repr

structure Session where
  pipeline : Pipeline Collector
  publisher : Alert.Publisher
  timers : List (Chore × Periodic)
  now : Nat

def Collector.handler (present : Instant) : Handler Collector :=
  fun c line => c.handleLine line present

namespace Session

def chores (settings : Settings) : List (Chore × Duration) :=
  let reports := if settings.reportingEnabled then [(.report, settings.reportingInterval)] else []
  (.tick, settings.quantum) :: reports ++ [(.check, settings.alertInterval)]

def start (m : Monitor) : Except (Halt Failure) Session := do
  let follower ← m.tailer.follow
  .ok
    { pipeline := .start follower m.collector
      publisher := .create m.settings.alertThreshold m.hook
      timers := (chores m.settings).map fun (chore, period) => (chore, .start 0 period)
      now := 0 }

def collector (s : Session) : Collector := s.pipeline.state

def isCancelled (s : Session) : Bool := s.pipeline.follower.cancelled

def settle (present : Instant) (s : Session) : Session :=
  { s with pipeline := s.pipeline.settle (Collector.handler present) }

def append (bytes : List UInt8) (s : Session) : Session :=
  { s with pipeline := { s.pipeline with follower := s.pipeline.follower.append bytes } }

def fail (cause : String) (s : Session) : Session :=
  { s with pipeline := { s.pipeline with follower := s.pipeline.follower.fail cause } }

def stop (s : Session) : Session :=
  { s with pipeline := { s.pipeline with follower := s.pipeline.follower.cancel } }

def perform (present : Instant) (s : Session) : Chore → Session
  | .tick => { s with pipeline := { s.pipeline with state := s.collector.tick } }
  | .report =>
    let (sink, fault) := (s.collector.summary present).writeTo s.publisher.sink
    { s with
      publisher := { s.publisher with sink }
      timers := s.timers.filter fun (chore, _) => fault.isNone || chore ≠ .report }
  | .check => { s with publisher := (s.publisher.check s.collector.ring.average present).2 }

def due (s : Session) : List Chore :=
  let waiting := s.timers.filter (·.2.isDue s.now)
  (waiting.mergeSort fun a b => a.2.next ≤ b.2.next).map (·.1)

def poll (present : Instant) (s : Session) : Session :=
  if s.isCancelled then s
  else
    let timers := s.timers.map fun (chore, timer) => (chore, (timer.fire? s.now).getD timer)
    s.due.foldl (perform present) { s with timers }

def advance (present : Instant) (elapsed : Duration) (s : Session) : Session :=
  { s with now := s.now + elapsed.nanoseconds }.poll present

def drain (s : Session) : String × Session :=
  let (text, sink) := s.publisher.sink.drain
  (text, { s with publisher := { s.publisher with sink } })

end Session

end TrafficMonitor
