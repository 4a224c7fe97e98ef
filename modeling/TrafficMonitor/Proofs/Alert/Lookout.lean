import TrafficMonitor.Alert.Publisher
import TrafficMonitor.Proofs.Rate.Saturation

/-!
A publisher that watches a ring, and what can happen around it: traffic, checks, a listener that
takes alerts or goes away, and a sink that fails and recovers.
-/

namespace TrafficMonitor.Alert

open Time

inductive Act where
  | rate (e : Rate.Event)
  | check (now : Instant)
  | receive
  | close
  | fail (on : Bool)

def Act.rate? : Act → Option Rate.Event
  | .rate e => some e
  | .check _ | .receive | .close | .fail _ => none

inductive Traffic where
  | rate (e : Rate.Event)
  | check

def Act.traffic? : Act → Option Traffic
  | .rate e => some (.rate e)
  | .check _ => some .check
  | .receive | .close | .fail _ => none

def rates (acts : List Act) : List Rate.Event := acts.filterMap Act.rate?

inductive Outcome where
  | checked (result : Option Crossing) (hook : Option Hook) (failing : Bool)
  | taken (alert : Crossing)
  | dropped (alerts : List Crossing)

def Outcome.result? : Outcome → Option (Option Crossing)
  | .checked result _ _ => some result
  | .taken _ | .dropped _ => none

def results (outcomes : List Outcome) : List (Option Crossing) :=
  outcomes.filterMap Outcome.result?

def emitted (outcomes : List Outcome) : List Crossing := (results outcomes).filterMap id

theorem results_append (outcomes more : List Outcome) :
    results (outcomes ++ more) = results outcomes ++ results more :=
  List.filterMap_append

theorem emitted_append (outcomes more : List Outcome) :
    emitted (outcomes ++ more) = emitted outcomes ++ emitted more := by
  rw [emitted, results_append, List.filterMap_append, emitted, emitted]

structure Lookout where
  ring : Rate.Ring
  publisher : Publisher

namespace Lookout

def create (ring : Rate.Ring) (threshold : Float) (capacity : Option Nat) : Lookout :=
  ⟨ring, .create threshold (capacity.map Hook.create)⟩

def machine (l : Lookout) : Machine := l.publisher.machine

def hook (l : Lookout) : Option Hook := l.publisher.hook

def sink (l : Lookout) : Report.Sink := l.publisher.sink

def setHook (l : Lookout) (hook : Option Hook) : Lookout :=
  { l with publisher := { l.publisher with hook } }

def check (l : Lookout) (now : Instant) : Option Crossing × Lookout :=
  let (result, publisher) := l.publisher.check l.ring.average now
  (result, { l with publisher })

def step (l : Lookout) : Act → List Outcome × Lookout
  | .rate e => ([], { l with ring := l.ring.after e })
  | .check now => ([.checked (l.check now).1 l.hook l.sink.failing], (l.check now).2)
  | .receive =>
    ((l.hook.bind fun hook => hook.receive.1).toList.map .taken,
      l.setHook (l.hook.map fun hook => hook.receive.2))
  | .close => (l.hook.toList.map fun hook => .dropped hook.waiting, l.setHook (l.hook.map Hook.close))
  | .fail on =>
    ([], { l with publisher := { l.publisher with sink := { l.sink with failing := on } } })

def run (l : Lookout) : List Act → List Outcome × Lookout
  | [] => ([], l)
  | act :: acts =>
    let (outcomes, next) := l.step act
    let (more, last) := next.run acts
    (outcomes ++ more, last)

variable (l : Lookout) (now : Instant)

@[simp] theorem setHook_hook (hook : Option Hook) : (l.setHook hook).hook = hook := rfl

@[simp] theorem setHook_sink (hook : Option Hook) : (l.setHook hook).sink = l.sink := rfl

theorem run_append (acts more : List Act) :
    l.run (acts ++ more) =
      ((l.run acts).1 ++ ((l.run acts).2.run more).1, ((l.run acts).2.run more).2) := by
  induction acts generalizing l with
  | nil => rfl
  | cons act acts ih => simp only [List.cons_append, run, ih, List.append_assoc]

theorem run_concat (acts : List Act) (act : Act) :
    l.run (acts ++ [act]) =
      ((l.run acts).1 ++ ((l.run acts).2.step act).1, ((l.run acts).2.step act).2) := by
  simp only [run_append, run, List.append_nil]

theorem check_eq :
    let answer := l.machine.evaluate l.ring.average now
    l.check now = (answer.1, ⟨l.ring, answer.2,
      answer.1.elim l.sink fun alert => l.sink.writeLine alert.text,
      answer.1.elim l.hook fun alert => l.hook.bind (·.offer alert)⟩) := by
  cases h : l.machine.evaluate l.ring.average now with
  | mk result m =>
    rw [machine] at h
    cases result <;> simp [check, Publisher.check, h, Publisher.publish, hook, sink]

theorem check_result : (l.check now).1 = (l.machine.evaluate l.ring.average now).1 := by
  rw [check_eq]

theorem check_ring : (l.check now).2.ring = l.ring := by
  rw [check_eq]

theorem check_machine :
    (l.check now).2.machine = (l.machine.evaluate l.ring.average now).2 := by
  rw [check_eq]
  rfl

theorem check_hook :
    (l.check now).2.hook = (l.check now).1.elim l.hook fun alert => l.hook.bind (·.offer alert) := by
  rw [check_eq]
  rfl

theorem check_sink :
    (l.check now).2.sink = (l.check now).1.elim l.sink fun alert => l.sink.writeLine alert.text := by
  rw [check_eq]
  rfl

theorem results_step (act : Act) :
    results (l.step act).1 =
      match act with
      | .check now => [(l.check now).1]
      | _ => [] := by
  cases act with
  | rate | check | fail => rfl
  | receive | close => simp [step, results, Outcome.result?]

theorem step_frame {act : Act} (h : act.traffic? = none) :
    (l.step act).2.ring = l.ring ∧ (l.step act).2.machine = l.machine := by
  cases act with
  | rate | check => cases h
  | receive | close | fail => exact ⟨rfl, rfl⟩

end Lookout

end TrafficMonitor.Alert
