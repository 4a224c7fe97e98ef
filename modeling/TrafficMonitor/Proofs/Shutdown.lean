import TrafficMonitor.Monitor
import TrafficMonitor.Proofs.Stopping

/-! However a monitor is stopped, each line that its follower handed on is counted, and counted
once. -/

namespace TrafficMonitor

open Follow Time

namespace Session

def withFollower (s : Session) (f : Follower) : Session :=
  { s with pipeline := { s.pipeline with follower := f } }

/-- Every interleaving of the follower, the taking side, the chores and the world around them. The
clock shows whatever time it likes. -/
inductive Runs (s₀ : Session) : Ledger → Session → Prop
  | start : Runs s₀ ⟨s₀.pipeline.follower.unread, [], [], [], []⟩ s₀
  | consume {l : Ledger} {s : Session} {q : Pipeline Collector} (present : Instant)
      (h : Runs s₀ l s) (hc : s.pipeline.consume (Collector.handler present) = some q) :
      Runs s₀
        (l.take s.pipeline.stage (s.pipeline.taken q)
          (s.pipeline.handled (Collector.handler present)))
        { s with pipeline := q }
  | follow {l : Ledger} {s : Session} {f : Follower} (h : Runs s₀ l s)
      (hs : s.pipeline.follower.step = some f) :
      Runs s₀ { l with handed := l.handed ++ handedOn s.pipeline.follower f } (s.withFollower f)
  | grow {l : Ledger} {s : Session} (bytes : List UInt8) (h : Runs s₀ l s) :
      Runs s₀ { l with written := l.written ++ bytes }
        (s.withFollower (s.pipeline.follower.grow bytes))
  | breakFile {l : Ledger} {s : Session} (cause : String) (h : Runs s₀ l s) :
      Runs s₀ l (s.withFollower (s.pipeline.follower.breakFile cause))
  | notify {l : Ledger} {s : Session} (n : Notice) (h : Runs s₀ l s) :
      Runs s₀ l (s.withFollower (s.pipeline.follower.notify n))
  | stop {l : Ledger} {s : Session} (h : Runs s₀ l s) : Runs s₀ l s.stop
  | perform {l : Ledger} {s : Session} (present : Instant) (chore : Chore) (h : Runs s₀ l s) :
      Runs s₀ l (s.perform present chore)

def linesSeen (c : Collector) : Nat := c.totalHits + c.skippedLines

theorem linesSeen_handler (present : Instant) (c : Collector) (line : String) :
    linesSeen (Collector.handler present c line).1 = linesSeen c + 1 := by
  simp only [Collector.handler, Collector.handleLine]
  split
  case h_1 record hr =>
    simp only [Collector.process]
    split
    case h_1 => simp only [linesSeen, Collector.count]; omega
    case h_2 =>
      split <;> simp only [linesSeen, Collector.count] <;> omega
  case h_2 => simp only [linesSeen, Collector.skip]; omega

theorem linesSeen_consume {present : Instant} {p q : Pipeline Collector} {items : List Item}
    {lines : List String} (hc : p.Consumed (Collector.handler present) items lines q) :
    linesSeen q.state = linesSeen p.state + lines.length := by
  cases hc with
  | ingested hs hq | drained hs hq => rw [Pipeline.handle_state, linesSeen_handler]; rfl
  | cancelled | failed | exhausted | told | closed | refused | finished => rfl

theorem pipeline_perform (present : Instant) (s : Session) (chore : Chore) :
    (s.perform present chore).pipeline.follower = s.pipeline.follower ∧
      (s.perform present chore).pipeline.stage = s.pipeline.stage ∧
      linesSeen (s.perform present chore).collector = linesSeen s.collector := by
  cases chore <;> exact ⟨rfl, rfl, rfl⟩

theorem start_eq {m : Monitor} {s : Session} (h : start m = .ok s) :
    ∃ path source capacity cancelled,
      s.pipeline = .start (.start path source capacity cancelled) m.collector := by
  cases hf : m.tailer.follow with
  | error failure =>
    simp only [start, hf, bind, Except.bind] at h
    cases h
  | ok follower =>
    simp only [start, hf, bind, Except.bind] at h
    cases h
    obtain ⟨source, rfl⟩ := Tailer.exists_source_of_follow hf
    exact ⟨_, source, _, _, rfl⟩

theorem accounted_of_runs {m : Monitor} {s₀ s : Session} {l : Ledger} (hm : start m = .ok s₀)
    (h : Runs s₀ l s) :
    Accounted l s.pipeline ∧
      linesSeen s.collector = linesSeen m.collector + l.handled.length := by
  induction h with
  | start =>
    obtain ⟨path, source, capacity, cancelled, hp⟩ := start_eq hm
    rw [collector, hp]
    exact ⟨Accounted.start path source capacity cancelled m.collector, rfl⟩
  | @consume l s q present h hc ih =>
    obtain ⟨ha, hl⟩ := ih
    have hconsumed := Pipeline.consumed_of_consume hc
    refine ⟨ha.consume hconsumed, ?_⟩
    have hq := linesSeen_consume hconsumed
    have ht := (l.take_written s.pipeline.stage (s.pipeline.taken q)
      (s.pipeline.handled (Collector.handler present))).2.2
    rw [ht, List.length_append, ← Nat.add_assoc, ← hl]
    exact hq
  | follow h hs ih => exact ⟨ih.1.follow hs, ih.2⟩
  | @grow l s bytes h ih =>
    obtain ⟨ha, hl⟩ := ih
    obtain ⟨finished, rest, ht⟩ := ha.tracks
    refine ⟨ha.of_eq (ht.grow bytes) ?_ ?_, hl⟩
    · simp only [Follower.grow]
      split <;> rfl
    · simp only [Follower.grow]
      split <;> rfl
  | breakFile cause h ih =>
    obtain ⟨ha, hl⟩ := ih
    obtain ⟨finished, rest, ht⟩ := ha.tracks
    exact ⟨ha.of_eq (ht.breakFile cause) rfl rfl, hl⟩
  | notify n h ih =>
    obtain ⟨ha, hl⟩ := ih
    obtain ⟨finished, rest, ht⟩ := ha.tracks
    exact ⟨ha.of_eq (ht.of_eq rfl rfl rfl) rfl rfl, hl⟩
  | stop h ih =>
    obtain ⟨ha, hl⟩ := ih
    obtain ⟨finished, rest, ht⟩ := ha.tracks
    exact ⟨ha.of_eq (ht.of_eq rfl rfl rfl) rfl rfl, hl⟩
  | @perform l s present chore h ih =>
    obtain ⟨⟨hh, hhandled, ht, hst⟩, hl⟩ := ih
    obtain ⟨hf, hs, hc⟩ := pipeline_perform present s chore
    refine ⟨⟨?_, hhandled, ?_, ?_⟩, hc.trans hl⟩
    · rw [hf, hh]
    · rw [hf]
      exact ht
    · rw [hf, hs]
      exact hst

theorem Runs.nearer {s₀ s : Session} {l : Ledger} (h : Runs s₀ l s)
    (hc : s.pipeline.follower.cancelled = true) (hend : 0 < s.pipeline.stage.ahead) :
    ∃ m t, Runs s₀ m t ∧ t.pipeline.follower.cancelled = true ∧ m.written = l.written ∧
      m.handed = l.handed ∧ t.pipeline.ahead < s.pipeline.ahead := by
  by_cases hs : s.pipeline.follower.isStopped = true ∨ ∀ result, s.pipeline.stage ≠ .closing result
  · obtain ⟨q, hq, hlt, hqc⟩ := Pipeline.exists_consume (h := Collector.handler ⟨0, 0⟩) hc hs hend
    have ht := l.take_written s.pipeline.stage (s.pipeline.taken q)
      (s.pipeline.handled (Collector.handler ⟨0, 0⟩))
    exact ⟨_, _, h.consume ⟨0, 0⟩ hq, hqc, ht.1, ht.2.1, hlt⟩
  · rw [not_or, Bool.not_eq_true] at hs
    obtain ⟨f, hf⟩ := Follower.exists_step hc hs.1
    obtain ⟨hlt, hqueue, hfc⟩ := Follower.ahead_step hc hf
    refine ⟨_, _, h.follow hf, hfc, rfl, ?_, ?_⟩
    · rw [handedOn, hqueue, List.drop_length, List.append_nil]
    · simp only [withFollower, Pipeline.ahead, hqueue]
      omega

theorem Runs.ends {s₀ s : Session} {l : Ledger} (h : Runs s₀ l s)
    (hc : s.pipeline.follower.cancelled = true) :
    ∃ m t, Runs s₀ m t ∧ m.written = l.written ∧ m.handed = l.handed ∧
      t.pipeline.stage.ahead = 0 := by
  induction hahead : s.pipeline.ahead using Nat.strongRecOn generalizing l s with
  | ind ahead ih =>
    by_cases hend : 0 < s.pipeline.stage.ahead
    · obtain ⟨m, t, hm, ht, hw, hh, hlt⟩ := h.nearer hc hend
      obtain ⟨m', t', hm', hw', hh', hend'⟩ := ih t.pipeline.ahead (hahead ▸ hlt) hm ht rfl
      exact ⟨m', t', hm', hw'.trans hw, hh'.trans hh, hend'⟩
    · exact ⟨l, s, h, rfl, rfl, Nat.eq_zero_of_not_pos hend⟩

/-- A failure is the last item that is handed on. When a monitor has ended, it has handled just the
lines handed on, each once and in the order of the file, and its result is the failure that its
taking loop met, if it met one. Once it is told to stop it can always come to an end, and no further
line is handed on. -/
theorem shutdown_handles_each_line_once {m : Monitor} {s₀ s : Session} {l : Ledger}
    (hm : start m = .ok s₀) (h : Runs s₀ l s) :
    (∀ before failure after, s.pipeline.follower.queue = before ++ .error failure :: after →
      after = []) ∧
    (∀ result, s.pipeline.result? = some result →
      l.handled = linesOf l.handed ∧ l.handled <+: completeLines l.written ∧
      linesSeen s.collector = linesSeen m.collector + l.handled.length ∧
      (∀ failure, result = .error failure ↔ .error failure ∈ l.ingested) ∧
      ∀ failure, .error failure ∈ l.ingested →
        l.handed = l.handled.map .ok ++ [.error failure]) ∧
    (s.pipeline.follower.cancelled = true →
      ∃ k t, Runs s₀ k t ∧ k.written = l.written ∧ k.handed = l.handed ∧
        ((∃ result, t.pipeline.stage = .ended result) ∨
          ∃ fault, t.pipeline.stage = .crashed fault)) := by
  obtain ⟨⟨hh, hhandled, ⟨finished, rest, ht⟩, hst⟩, hl⟩ := accounted_of_runs hm h
  refine ⟨?_, ?_, ?_⟩
  · intro before failure after hq
    have hsplit : l.handed = (l.ingested ++ l.drained ++ before) ++ .error failure :: after := by
      rw [hh, hq, List.append_assoc (l.ingested ++ l.drained)]
    exact ht.nothing_behind_failure hsplit
  · intro result hr
    have hs : s.pipeline.stage = .ended result := by
      simp only [Pipeline.result?] at hr
      split at hr
      case h_1 hs => exact hs.trans (congrArg Stage.ended (Option.some.inj hr))
      case h_2 => cases hr
    rw [hs] at hst
    cases hst with
    | ended ho hf hq =>
      rw [hq, List.append_nil] at hh
      rw [← hh] at hhandled
      obtain ⟨lines, hp, hform⟩ := ht.handed_form
      have hlines : l.handled = lines := by
        rcases hform with hform | ⟨failure, hform⟩
        · rw [hhandled, hform, linesOf_map]
        · rw [hhandled, hform, linesOf_append, linesOf_map]
          exact List.append_nil _
      refine ⟨hhandled, hlines ▸ hp, hl, ho.error_iff, ?_⟩
      intro failure hi
      have hmem : .error failure ∈ l.handed := hh ▸ List.mem_append_left _ hi
      rcases hform with hform | ⟨last, hform⟩
      · rw [hform] at hmem
        simp at hmem
      · rw [hform] at hmem
        have he : failure = last := by simpa using hmem
        rw [hform, hlines, he]
  · intro hc
    obtain ⟨k, t, hk, hw, hhanded, hend⟩ := h.ends hc
    exact ⟨k, t, hk, hw, hhanded, Stage.over_of_ahead hend⟩

theorem handler_skip {present : Instant} {c : Collector} {line : String}
    (h : Log.Record.parse? line = none) :
    Collector.handler present c line = (c.skip, none) := by
  simp only [Collector.handler, Collector.handleLine, h]

theorem shutdown_handles_each_line_once_queued :
    ∃ m s₀ l s, start m = .ok s₀ ∧ Runs s₀ l s ∧ s.pipeline.result? = some (.ok ()) ∧
      l.handled = ["x", "y"] ∧ l.written = [120, 10, 121, 10, 122] ∧
      linesSeen s.collector = linesSeen m.collector + 2 := by
  obtain ⟨c, _⟩ : ∃ c, Collector.create .default = .ok c := ⟨_, rfl⟩
  let tailer : Tailer := ⟨"access.log", 1, .file [120, 10, 121, 10], true, false, none, false⟩
  let p : Pipeline Collector := .start (.start "access.log" (.bytes [120, 10, 121, 10]) 1 false) c
  obtain ⟨⟨_, publisher, timers, now⟩, hs, rfl⟩ :
      ∃ s₀ : Session, start ⟨.default, c, tailer, none⟩ = .ok s₀ ∧ s₀.pipeline = p := ⟨_, rfl, rfl⟩
  have hx : Log.Record.parse? (lineText [120, 10]) = none := by decide
  have hy : Log.Record.parse? (lineText [121, 10]) = none := by decide
  have h₀ := @Runs.start ⟨p, publisher, timers, now⟩
  have h₁ := ((h₀.follow rfl).follow rfl).consume ⟨0, 0⟩
    ((Pipeline.consume_ingested rfl rfl rfl).trans
      (congrArg some (Pipeline.handle_eq (handler_skip hx))))
  have h₂ := (((h₁.follow rfl).follow rfl).stop.consume ⟨0, 0⟩ rfl).grow [122]
  have h₃ := ((((h₂.follow rfl).follow rfl).follow rfl).consume ⟨0, 0⟩ rfl).consume ⟨0, 0⟩
    ((Pipeline.consume_drained rfl rfl).trans
      (congrArg some (Pipeline.handle_eq (handler_skip hy))))
  have h₄ := h₃.consume ⟨0, 0⟩ rfl
  obtain ⟨hhandled, _, hseen, _⟩ := (shutdown_handles_each_line_once hs h₄).2.1 (.ok ()) rfl
  have hlines : [lineText [120, 10], lineText [121, 10]] = ["x", "y"] := by decide
  have hxy := hhandled.trans hlines
  refine ⟨_, _, _, _, hs, h₄, rfl, hxy, rfl, ?_⟩
  rw [hseen, hxy]
  rfl

end Session

end TrafficMonitor
