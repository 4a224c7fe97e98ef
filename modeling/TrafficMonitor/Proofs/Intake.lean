import TrafficMonitor.Pipeline
import TrafficMonitor.Proofs.Follow.Tracking

/-! An account of every item between the follower and the handler. -/

namespace TrafficMonitor

open Follow

def linesOf (items : List Item) : List String := items.filterMap Except.toOption

@[simp] theorem linesOf_append (xs ys : List Item) : linesOf (xs ++ ys) = linesOf xs ++ linesOf ys :=
  List.filterMap_append

@[simp] theorem linesOf_map (lines : List String) : linesOf (lines.map .ok) = lines := by
  induction lines with
  | nil => rfl
  | cons line lines ih => exact congrArg (line :: ·) ih

namespace Pipeline

variable {σ : Type} {h : Handler σ} {p q : Pipeline σ}

def recording (h : Handler σ) : Handler (σ × List String) :=
  fun (s, lines) line => (((h s line).1, lines ++ [line]), (h s line).2)

def handled (h : Handler σ) (p : Pipeline σ) : List String :=
  match (Pipeline.mk p.follower p.stage (p.state, [])).consume (recording h) with
  | none => []
  | some q => q.state.2

def taken (p q : Pipeline σ) : List Item :=
  p.follower.queue.take (p.follower.queue.length - q.follower.queue.length)

theorem handle_eq {line : String} {state : σ} (hs : h p.state line = (state, none)) :
    p.handle h line = { p with state } := by
  simp only [handle, hs]

theorem handle_follower (h : Handler σ) (p : Pipeline σ) (line : String) :
    (p.handle h line).follower = p.follower := by
  rw [handle]
  split <;> rfl

theorem handle_state (h : Handler σ) (p : Pipeline σ) (line : String) :
    (p.handle h line).state = (h p.state line).1 := by
  rw [handle]
  split
  case h_1 state hs => rw [hs]
  case h_2 state fault hs => rw [hs]

theorem handle_stage (h : Handler σ) (p : Pipeline σ) (line : String) :
    (p.handle h line).stage = p.stage ∨ ∃ fault, (p.handle h line).stage = .crashed fault := by
  rw [handle]
  split
  · exact .inl rfl
  · exact .inr ⟨_, rfl⟩

/-- Everything that one step of the taking side can do, with the items it takes and the lines it
gives to the handler. -/
inductive Consumed (h : Handler σ) (p : Pipeline σ) :
    List Item → List String → Pipeline σ → Prop
  | cancelled (hs : p.stage = .taking) (hc : p.follower.cancelled = true) :
      Consumed h p [] [] { p with stage := .closing (.ok ()) }
  | ingested {line : String} {rest : List Item} (hs : p.stage = .taking)
      (hq : p.follower.queue = .ok line :: rest) :
      Consumed h p [.ok line] [line]
        (({ p with follower := { p.follower with queue := rest } } : Pipeline σ).handle h line)
  | failed {failure : Failure} {rest : List Item} (hs : p.stage = .taking)
      (hq : p.follower.queue = .error failure :: rest) :
      Consumed h p [.error failure] []
        { p with
          follower := { p.follower with queue := rest }
          stage := .closing (.error failure) }
  | exhausted (hs : p.stage = .taking) (hq : p.follower.queue = [])
      (hf : p.follower.phase = .stopped) :
      Consumed h p [] [] { p with stage := .closing (.ok ()) }
  | told {result : Except Failure Unit} (hs : p.stage = .closing result) :
      Consumed h p [] [] { p with follower := p.follower.cancel }
  | closed {result : Except Failure Unit} (hs : p.stage = .closing result)
      (hf : p.follower.phase = .stopped) :
      Consumed h p [] [] { p with stage := .draining result }
  | drained {result : Except Failure Unit} {line : String} {rest : List Item}
      (hs : p.stage = .draining result) (hq : p.follower.queue = .ok line :: rest) :
      Consumed h p [.ok line] [line]
        (({ p with follower := { p.follower with queue := rest } } : Pipeline σ).handle h line)
  | refused {result : Except Failure Unit} {failure : Failure} {rest : List Item}
      (hs : p.stage = .draining result) (hq : p.follower.queue = .error failure :: rest) :
      Consumed h p [.error failure] []
        { p with follower := { p.follower with queue := rest }, stage := .ended result }
  | finished {result : Except Failure Unit} (hs : p.stage = .draining result)
      (hq : p.follower.queue = []) :
      Consumed h p [] [] { p with stage := .ended result }

theorem consume_cancelled (hs : p.stage = .taking) (hc : p.follower.cancelled = true) :
    p.consume h = some { p with stage := .closing (.ok ()) } := by
  simp only [consume, hs, hc, if_true]

theorem consume_ingested {line : String} {rest : List Item} (hs : p.stage = .taking)
    (hc : p.follower.cancelled = false) (hq : p.follower.queue = .ok line :: rest) :
    p.consume h =
      some (({ p with follower := { p.follower with queue := rest } } : Pipeline σ).handle h line) := by
  simp [consume, hs, hc, Follower.receive, hq]

theorem consume_failed {failure : Failure} {rest : List Item} (hs : p.stage = .taking)
    (hc : p.follower.cancelled = false) (hq : p.follower.queue = .error failure :: rest) :
    p.consume h =
      some { p with
        follower := { p.follower with queue := rest }
        stage := .closing (.error failure) } := by
  simp [consume, hs, hc, Follower.receive, hq]

theorem consume_exhausted (hs : p.stage = .taking) (hc : p.follower.cancelled = false)
    (hq : p.follower.queue = []) :
    p.consume h =
      if p.follower.isStopped then some { p with stage := .closing (.ok ()) } else none := by
  simp [consume, hs, hc, Follower.receive, hq]

theorem consume_closing {result : Except Failure Unit} (hs : p.stage = .closing result) :
    p.consume h =
      if !p.follower.cancelled then some { p with follower := p.follower.cancel }
      else if p.follower.isStopped then some { p with stage := .draining result }
      else none := by
  simp only [consume, hs]

theorem consume_stopped (hs : p.stage = .taking) (hc : p.follower.cancelled = false)
    (hq : p.follower.queue = []) (hf : p.follower.isStopped = true) :
    p.consume h = some { p with stage := .closing (.ok ()) } := by
  rw [consume_exhausted hs hc hq, if_pos hf]

theorem consume_told {result : Except Failure Unit} (hs : p.stage = .closing result)
    (hc : p.follower.cancelled = false) :
    p.consume h = some { p with follower := p.follower.cancel } := by
  simp [consume_closing hs, hc]

theorem consume_closed {result : Except Failure Unit} (hs : p.stage = .closing result)
    (hc : p.follower.cancelled = true) (hf : p.follower.isStopped = true) :
    p.consume h = some { p with stage := .draining result } := by
  simp [consume_closing hs, hc, hf]

theorem consume_drained {result : Except Failure Unit} {line : String} {rest : List Item}
    (hs : p.stage = .draining result) (hq : p.follower.queue = .ok line :: rest) :
    p.consume h =
      some (({ p with follower := { p.follower with queue := rest } } : Pipeline σ).handle h line) := by
  simp [consume, hs, Follower.receive, hq]

theorem consume_refused {result : Except Failure Unit} {failure : Failure} {rest : List Item}
    (hs : p.stage = .draining result) (hq : p.follower.queue = .error failure :: rest) :
    p.consume h =
      some { p with follower := { p.follower with queue := rest }, stage := .ended result } := by
  simp [consume, hs, Follower.receive, hq]

theorem consume_finished {result : Except Failure Unit} (hs : p.stage = .draining result)
    (hq : p.follower.queue = []) :
    p.consume h =
      some { p with
        follower := { p.follower with queue := [] }
        stage := .ended result } := by
  simp [consume, hs, Follower.receive, hq]

theorem phase_of_isStopped {f : Follower} (h : f.isStopped = true) : f.phase = .stopped := by
  rw [Follower.isStopped] at h
  split at h
  case h_1 hp => exact hp
  case h_2 => cases h

theorem taken_of_queue_eq {q : Pipeline σ} (hq : q.follower.queue = p.follower.queue) :
    p.taken q = [] := by
  rw [taken, hq, Nat.sub_self, List.take_zero]

theorem taken_of_queue_cons {q : Pipeline σ} {item : Item} {rest : List Item}
    (hp : p.follower.queue = item :: rest) (hq : q.follower.queue = rest) :
    p.taken q = [item] := by
  simp [taken, hp, hq]

theorem handled_eq {r : Pipeline (σ × List String)}
    (hc : (Pipeline.mk p.follower p.stage (p.state, [])).consume (recording h) = some r) :
    p.handled h = r.state.2 := by
  rw [handled, hc]

theorem handled_handle {line : String} {follower : Follower}
    (hc : (Pipeline.mk p.follower p.stage (p.state, [])).consume (recording h) =
      some ((Pipeline.mk follower p.stage (p.state, [])).handle (recording h) line)) :
    p.handled h = [line] := by
  rw [handled_eq hc, handle_state]
  rfl

theorem consumed_of_taking (hs : p.stage = .taking) (hc : p.consume h = some q) :
    Consumed h p (p.taken q) (p.handled h) q := by
  cases hcancel : p.follower.cancelled with
  | true =>
    obtain rfl := Option.some.inj ((consume_cancelled hs hcancel).symm.trans hc)
    rw [taken_of_queue_eq (by rfl), handled_eq (consume_cancelled hs hcancel)]
    exact .cancelled hs hcancel
  | false =>
    cases hq : p.follower.queue with
    | nil =>
      cases hf : p.follower.isStopped with
      | false => simp [consume_exhausted hs hcancel hq, hf] at hc
      | true =>
        obtain rfl := Option.some.inj ((consume_stopped hs hcancel hq hf).symm.trans hc)
        rw [taken_of_queue_eq (by rfl), handled_eq (consume_stopped hs hcancel hq hf)]
        exact .exhausted hs hq (phase_of_isStopped hf)
    | cons item rest =>
      cases item with
      | ok line =>
        obtain rfl := Option.some.inj ((consume_ingested hs hcancel hq).symm.trans hc)
        rw [taken_of_queue_cons hq (by rw [handle_follower]),
          handled_handle (consume_ingested hs hcancel hq)]
        exact .ingested hs hq
      | error failure =>
        obtain rfl := Option.some.inj ((consume_failed hs hcancel hq).symm.trans hc)
        rw [taken_of_queue_cons hq rfl, handled_eq (consume_failed hs hcancel hq)]
        exact .failed hs hq

theorem consumed_of_closing {result : Except Failure Unit} (hs : p.stage = .closing result)
    (hc : p.consume h = some q) : Consumed h p (p.taken q) (p.handled h) q := by
  cases hcancel : p.follower.cancelled with
  | false =>
    obtain rfl := Option.some.inj ((consume_told hs hcancel).symm.trans hc)
    rw [taken_of_queue_eq (by rfl), handled_eq (consume_told hs hcancel)]
    exact .told hs
  | true =>
    cases hf : p.follower.isStopped with
    | false => simp [consume_closing hs, hcancel, hf] at hc
    | true =>
      obtain rfl := Option.some.inj ((consume_closed hs hcancel hf).symm.trans hc)
      rw [taken_of_queue_eq (by rfl), handled_eq (consume_closed hs hcancel hf)]
      exact .closed hs (phase_of_isStopped hf)

theorem consumed_of_draining {result : Except Failure Unit} (hs : p.stage = .draining result)
    (hc : p.consume h = some q) : Consumed h p (p.taken q) (p.handled h) q := by
  cases hq : p.follower.queue with
  | nil =>
    obtain rfl := Option.some.inj ((consume_finished hs hq).symm.trans hc)
    have hfollower : ({ p.follower with queue := [] } : Follower) = p.follower := by rw [← hq]
    rw [taken_of_queue_eq hq.symm, handled_eq (consume_finished hs hq), hfollower]
    exact .finished hs hq
  | cons item rest =>
    cases item with
    | ok line =>
      obtain rfl := Option.some.inj ((consume_drained hs hq).symm.trans hc)
      rw [taken_of_queue_cons hq (by rw [handle_follower]), handled_handle (consume_drained hs hq)]
      exact .drained hs hq
    | error failure =>
      obtain rfl := Option.some.inj ((consume_refused hs hq).symm.trans hc)
      rw [taken_of_queue_cons hq rfl, handled_eq (consume_refused hs hq)]
      exact .refused hs hq

theorem consumed_of_consume (hc : p.consume h = some q) :
    Consumed h p (p.taken q) (p.handled h) q := by
  cases hs : p.stage with
  | taking => exact consumed_of_taking hs hc
  | closing result => exact consumed_of_closing hs hc
  | draining result => exact consumed_of_draining hs hc
  | ended result => simp [consume, hs] at hc
  | crashed fault => simp [consume, hs] at hc

namespace Consumed

variable {items : List Item} {lines : List String}

theorem queue_eq (hc : Consumed h p items lines q) :
    p.follower.queue = items ++ q.follower.queue := by
  cases hc with
  | ingested hs hq | drained hs hq => rw [handle_follower, hq]; rfl
  | failed hs hq | refused hs hq => exact hq
  | cancelled | exhausted | told | closed | finished => rfl

theorem lines_eq (hc : Consumed h p items lines q) : lines = linesOf items := by
  cases hc <;> rfl

theorem source_eq (hc : Consumed h p items lines q) : q.follower.source = p.follower.source := by
  cases hc <;> first | rw [handle_follower] | rfl

theorem buffer_eq (hc : Consumed h p items lines q) : q.follower.buffer = p.follower.buffer := by
  cases hc <;> first | rw [handle_follower] | rfl

theorem phase_eq (hc : Consumed h p items lines q) : q.follower.phase = p.follower.phase := by
  cases hc <;> first | rw [handle_follower] | rfl

end Consumed

end Pipeline

/-- All bytes of the file, the items put into the queue, those taken out of it before and after the
taking loop was left, and the lines given to the handler. -/
structure Ledger where
  written : List UInt8
  handed : List Item
  ingested : List Item
  drained : List Item
  handled : List String

def Ledger.take (l : Ledger) (stage : Stage) (items : List Item) (lines : List String) : Ledger :=
  match stage with
  | .taking => { l with ingested := l.ingested ++ items, handled := l.handled ++ lines }
  | _ => { l with drained := l.drained ++ items, handled := l.handled ++ lines }

@[simp] theorem Ledger.take_nil (l : Ledger) (stage : Stage) : l.take stage [] [] = l := by
  simp only [take]
  split <;> simp only [List.append_nil]

theorem Ledger.take_written (l : Ledger) (stage : Stage) (items : List Item) (lines : List String) :
    (l.take stage items lines).written = l.written ∧ (l.take stage items lines).handed = l.handed ∧
      (l.take stage items lines).handled = l.handled ++ lines := by
  simp only [Ledger.take]
  split <;> exact ⟨rfl, rfl, rfl⟩

inductive Outcome : Except Failure Unit → List Item → Prop
  | ok (lines : List String) : Outcome (.ok ()) (lines.map .ok)
  | error (lines : List String) (failure : Failure) :
      Outcome (.error failure) (lines.map .ok ++ [.error failure])

inductive Standing (l : Ledger) (f : Follower) : Stage → Prop
  | taking (hd : l.drained = []) (ho : Outcome (.ok ()) l.ingested) : Standing l f .taking
  | closing {result : Except Failure Unit} (hd : l.drained = []) (ho : Outcome result l.ingested) :
      Standing l f (.closing result)
  | draining {result : Except Failure Unit} (ho : Outcome result l.ingested)
      (hf : f.phase = .stopped) : Standing l f (.draining result)
  | ended {result : Except Failure Unit} (ho : Outcome result l.ingested)
      (hf : f.phase = .stopped) (hq : f.queue = []) : Standing l f (.ended result)
  | crashed {fault : Time.Fault} : Standing l f (.crashed fault)

structure Accounted {σ : Type} (l : Ledger) (p : Pipeline σ) : Prop where
  handed_eq : l.handed = l.ingested ++ l.drained ++ p.follower.queue
  handled_eq : l.handled = linesOf (l.ingested ++ l.drained)
  tracks : ∃ finished rest, Tracks l.written l.handed p.follower finished rest
  standing : Standing l p.follower p.stage

theorem Outcome.concat_ok {items : List Item} (h : Outcome (.ok ()) items) (line : String) :
    Outcome (.ok ()) (items ++ [.ok line]) := by
  cases h with
  | ok => simpa using Outcome.ok (_ ++ [line])

theorem Outcome.concat_error {items : List Item} (h : Outcome (.ok ()) items) (failure : Failure) :
    Outcome (.error failure) (items ++ [.error failure]) := by
  cases h with
  | ok => exact .error _ failure

theorem Outcome.error_iff {result : Except Failure Unit} {items : List Item}
    (h : Outcome result items) (failure : Failure) :
    result = .error failure ↔ .error failure ∈ items := by
  cases h with
  | ok lines => simp
  | error lines other =>
    simp only [Except.error.injEq, List.mem_append, List.mem_map, reduceCtorEq, and_false,
      exists_false, List.mem_singleton, false_or]
    exact eq_comm

theorem Standing.of_eq {l m : Ledger} {f g : Follower} {stage : Stage} (h : Standing l f stage)
    (hi : m.ingested = l.ingested) (hd : m.drained = l.drained) (hp : g.phase = f.phase)
    (hq : g.queue = f.queue) : Standing m g stage := by
  cases h with
  | taking hnone ho => exact .taking (hd.trans hnone) (hi ▸ ho)
  | closing hnone ho => exact .closing (hd.trans hnone) (hi ▸ ho)
  | draining ho hf => exact .draining (hi ▸ ho) (hp.trans hf)
  | ended ho hf hempty => exact .ended (hi ▸ ho) (hp.trans hf) (hq.trans hempty)
  | crashed => exact .crashed

theorem Standing.follow {l : Ledger} {f g : Follower} {stage : Stage} (h : Standing l f stage)
    (hs : f.step = some g) (handed : List Item) :
    Standing { l with handed := handed } g stage := by
  have hactive : f.phase ≠ .stopped := by
    intro hp
    simp [Follower.step, hp] at hs
  cases h with
  | taking hd ho => exact .taking hd ho
  | closing hd ho => exact .closing hd ho
  | draining ho hf | ended ho hf => exact (hactive hf).elim
  | crashed => exact .crashed

theorem Standing.handle {σ : Type} {l : Ledger} {f : Follower} {p : Pipeline σ}
    (h : Standing l f p.stage) (handler : Handler σ) (line : String) :
    Standing l f (p.handle handler line).stage := by
  rcases p.handle_stage handler line with hs | ⟨fault, hs⟩
  · exact hs ▸ h
  · exact hs ▸ .crashed

namespace Accounted

variable {σ : Type} {h : Handler σ} {l : Ledger} {p q : Pipeline σ} {f : Follower}

theorem start (path : String) (source : Source) (capacity : Nat) (cancelled : Bool) (state : σ) :
    Accounted ⟨(Follower.start path source capacity cancelled).unread, [], [], [], []⟩
      (Pipeline.start (.start path source capacity cancelled) state) := by
  refine ⟨rfl, rfl, ?_, .taking rfl (.ok [])⟩
  exact ⟨[], Tracks.start path source capacity cancelled⟩

theorem standing_consume {items : List Item} {lines : List String} (ha : Accounted l p)
    (hc : p.Consumed h items lines q) :
    Standing (l.take p.stage items lines) q.follower q.stage := by
  obtain ⟨hh, _, ⟨finished, rest, ht⟩, hst⟩ := ha
  cases hc with
  | cancelled hs | exhausted hs =>
    rw [hs] at hst
    rw [Ledger.take_nil]
    cases hst with
    | taking hd ho => exact .closing hd ho
  | ingested hs hq =>
    rw [hs] at hst ⊢
    rw [Pipeline.handle_follower]
    apply Standing.handle
    cases hst with
    | taking hd ho => exact .taking hd (ho.concat_ok _)
  | failed hs hq =>
    rw [hs] at hst ⊢
    cases hst with
    | taking hd ho => exact .closing hd (ho.concat_error _)
  | told hs =>
    rw [Ledger.take_nil]
    exact hst.of_eq rfl rfl rfl rfl
  | closed hs hf =>
    rw [hs] at hst
    rw [Ledger.take_nil]
    cases hst with
    | closing hd ho => exact .draining ho hf
  | drained hs hq =>
    rw [hs] at hst ⊢
    rw [Pipeline.handle_follower]
    apply Standing.handle
    cases hst with
    | draining ho hf => exact .draining ho hf
  | @refused result failure after hs hq =>
    rw [hs] at hst ⊢
    cases hst with
    | draining ho hf =>
      rw [hq] at hh
      exact .ended ho hf (ht.nothing_behind_failure hh)
  | finished hs hq =>
    rw [hs] at hst ⊢
    rw [Ledger.take_nil]
    cases hst with
    | draining ho hf => exact .ended ho hf hq

theorem taken_eq (ha : Accounted l p) (items : List Item) (lines : List String) :
    (l.take p.stage items lines).ingested ++ (l.take p.stage items lines).drained =
      l.ingested ++ l.drained ++ items := by
  have hst := ha.standing
  generalize p.stage = stage at hst
  cases hst with
  | taking hd => simp [Ledger.take, hd]
  | closing | draining | ended | crashed => simp [Ledger.take]

theorem consume {items : List Item} {lines : List String} (ha : Accounted l p)
    (hc : p.Consumed h items lines q) : Accounted (l.take p.stage items lines) q := by
  have hst := ha.standing_consume hc
  have htaken := ha.taken_eq items lines
  obtain ⟨hw, hhanded, hhandled⟩ := l.take_written p.stage items lines
  obtain ⟨hh, hl, ⟨finished, rest, ht⟩, _⟩ := ha
  refine ⟨?_, ?_, ⟨finished, rest, ?_⟩, hst⟩
  · rw [htaken, hhanded, hh, hc.queue_eq, List.append_assoc _ items]
  · rw [htaken, hhandled, hl, hc.lines_eq, linesOf_append (_ ++ _)]
  · rw [hw, hhanded]
    exact ht.of_eq hc.source_eq hc.buffer_eq hc.phase_eq

theorem follow (ha : Accounted l p) (hs : p.follower.step = some f) :
    Accounted { l with handed := l.handed ++ handedOn p.follower f } { p with follower := f } := by
  obtain ⟨hh, hl, ⟨finished, rest, ht⟩, hst⟩ := ha
  refine ⟨?_, hl, ht.step hs, ?_⟩
  · rw [hh, Follower.queue_step hs, List.append_assoc _ p.follower.queue]
  · exact hst.follow hs _

theorem of_eq {written : List UInt8} {finished rest : List UInt8} (ha : Accounted l p)
    (ht : Tracks written l.handed f finished rest) (hp : f.phase = p.follower.phase)
    (hq : f.queue = p.follower.queue) :
    Accounted { l with written := written } { p with follower := f } :=
  ⟨hq ▸ ha.handed_eq, ha.handled_eq, ⟨finished, rest, ht⟩, ha.standing.of_eq rfl rfl hp hq⟩

end Accounted

end TrafficMonitor
