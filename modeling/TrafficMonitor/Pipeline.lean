import TrafficMonitor.Follow.Follower
import TrafficMonitor.Time.Instant

/-!
The way of lines from a follower to the one who counts them. Lines are taken one at a time until the
follower is cancelled, fails or stops; then the follower is waited for, and the lines it had handed
on before are still taken.
-/

namespace TrafficMonitor

open Follow Time

abbrev Handler (σ : Type) := σ → String → σ × Option Fault

inductive Stage where
  | taking
  | closing (result : Except Failure Unit)
  | draining (result : Except Failure Unit)
  | ended (result : Except Failure Unit)
  | crashed (fault : Fault)

structure Pipeline (σ : Type) where
  follower : Follower
  stage : Stage
  state : σ

namespace Pipeline

variable {σ : Type}

def start (follower : Follower) (state : σ) : Pipeline σ := ⟨follower, .taking, state⟩

def handle (h : Handler σ) (p : Pipeline σ) (line : String) : Pipeline σ :=
  match h p.state line with
  | (state, none) => { p with state }
  | (state, some fault) => { p with state, stage := .crashed fault }

/-- One step of the one who takes the lines, or `none` where there is nothing to do. Cancellation
comes before the next line. What waits behind a failure is not taken any more. -/
def consume (h : Handler σ) (p : Pipeline σ) : Option (Pipeline σ) :=
  match p.stage with
  | .taking =>
    if p.follower.cancelled then some { p with stage := .closing (.ok ()) }
    else
      match p.follower.receive with
      | (some (.ok line), follower) => some ({ p with follower }.handle h line)
      | (some (.error failure), follower) =>
        some { p with follower, stage := .closing (.error failure) }
      | (none, _) =>
        if p.follower.isStopped then some { p with stage := .closing (.ok ()) } else none
  | .closing result =>
    if !p.follower.cancelled then some { p with follower := p.follower.cancel }
    else if p.follower.isStopped then some { p with stage := .draining result }
    else none
  | .draining result =>
    match p.follower.receive with
    | (some (.ok line), follower) => some ({ p with follower }.handle h line)
    | (_, follower) => some { p with follower, stage := .ended result }
  | .ended _ | .crashed _ => none

def step (h : Handler σ) (p : Pipeline σ) : Option (Pipeline σ) :=
  match p.consume h with
  | some q => some q
  | none => p.follower.step.map fun follower => { p with follower }

def run (h : Handler σ) : Nat → Pipeline σ → Pipeline σ
  | 0, p => p
  | n + 1, p =>
    match p.step h with
    | none => p
    | some q => run h n q

def budget (p : Pipeline σ) : Nat :=
  p.follower.budget + p.follower.queue.length + p.follower.unread.length + 6

def settle (h : Handler σ) (p : Pipeline σ) : Pipeline σ := p.run h p.budget

def result? (p : Pipeline σ) : Option (Except Failure Unit) :=
  match p.stage with
  | .ended result => some result
  | _ => none

end Pipeline

end TrafficMonitor
