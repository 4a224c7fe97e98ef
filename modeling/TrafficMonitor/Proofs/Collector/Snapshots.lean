import TrafficMonitor.Proofs.Collector.Completion

/-! A summary that is taken while the ring advances may be one of two moments: the latest count is
read at the one and the average at the other. -/

namespace TrafficMonitor

open Time Log Report Decimal

namespace Collector

def rate (c : Collector) (record : Record) (now : Instant) : Collector × Option Fault :=
  match record.timestamp with
  | none => (c, none)
  | some time =>
    match c.ring.record time.instant now with
    | .error fault => (c, some fault)
    | .ok (_, ring) => ({ c with ring }, none)

theorem process_eq_rate_count (c : Collector) (record : Record) (now : Instant) :
    c.process record now = (c.count record).rate record now := rfl

def ticked (c : Collector) (k : Nat) : Collector := c.afterAll (List.replicate k .tick)

theorem ticked_succ (c : Collector) (k : Nat) : c.ticked (k + 1) = (c.ticked k).tick := by
  rw [ticked, List.replicate_succ', afterAll_append]
  rfl

def summaryAcross (c : Collector) (k : Nat) (time : Instant) : Summary :=
  { c.summary time with averageHits := (c.ticked k).ring.average }

theorem summary_ticked (c : Collector) (k : Nat) (time : Instant) :
    (c.ticked k).summary time =
      { c.summary time with
        hitsPerQuantum := (c.ticked k).ring.latest
        averageHits := (c.ticked k).ring.average } := by
  induction k with
  | zero => rfl
  | succ k ih =>
    -- a quantum that goes by is seen in the ring alone
    have htick (d : Collector) : d.tick.summary time =
        { d.summary time with
          hitsPerQuantum := d.tick.ring.latest
          averageHits := d.tick.ring.average } := rfl
    rw [ticked_succ, htick, ih]

inductive Reading where
  | waiting
  | copied (copy : Collector) (time : Instant)
  | halfway (copy : Collector) (time : Instant) (hits : Nat)
  | done (summary : Summary)

def Reading.isHolding : Reading → Bool
  | .copied _ _ | .halfway _ _ _ => true
  | .waiting | .done _ => false

/-- A collector in use by a thread that folds in records, a ticker and a thread that takes a summary.
The aggregates are behind one lock, which a record keeps to itself until its hit rate is counted; the
ring is behind another, held for one look or one change at a time. -/
structure Shared where
  collector : Collector
  writer : Option Record
  reading : Reading

inductive Act where
  | beginRecord (record : Record)
  | rate (now : Instant)
  | skip
  | tick
  | copy (time : Instant)
  | readLatest
  | readAverage

namespace Shared

def start (c : Collector) : Shared := ⟨c, none, .waiting⟩

def isFree (s : Shared) : Bool := s.writer.isNone && !s.reading.isHolding

def step (s : Shared) : Act → Option Shared
  | .beginRecord record =>
    if s.isFree then some { s with collector := s.collector.count record, writer := some record }
    else none
  | .rate now =>
    match s.writer with
    | none => none
    | some record => some { s with collector := (s.collector.rate record now).1, writer := none }
  | .skip => if s.isFree then some { s with collector := s.collector.skip } else none
  | .tick => some { s with collector := s.collector.tick }
  | .copy time =>
    match s.writer, s.reading with
    | none, .waiting => some { s with reading := .copied s.collector time }
    | _, _ => none
  | .readLatest =>
    match s.reading with
    | .copied copy time => some { s with reading := .halfway copy time s.collector.ring.latest }
    | _ => none
  | .readAverage =>
    match s.reading with
    | .halfway copy time hits =>
      let averageHits := s.collector.ring.average
      some { s with reading := .done { copy.summary time with hitsPerQuantum := hits, averageHits } }
    | _ => none

def run (s : Shared) (acts : List Act) : Option Shared := acts.foldlM step s

theorem run_append (s : Shared) (acts more : List Act) :
    s.run (acts ++ more) = s.run acts >>= (run · more) := by
  simp only [run, List.foldlM_append]

theorem run_cons {s t : Shared} {act : Act} (h : s.step act = some t) (acts : List Act) :
    s.run (act :: acts) = t.run acts := by
  simp only [run, List.foldlM_cons, h, Option.bind_eq_bind, Option.bind_some]

theorem run_concat_eq_some {s t : Shared} {acts : List Act} {act : Act}
    (h : s.run (acts ++ [act]) = some t) : ∃ m, s.run acts = some m ∧ m.step act = some t := by
  rw [run_append] at h
  obtain ⟨m, hm, hstep⟩ := Option.bind_eq_some_iff.1 h
  exact ⟨m, hm, by simpa [run] using hstep⟩

inductive Stepped (s : Shared) : Act → Shared → Prop
  | begun (record : Record) (hw : s.writer = none) (hr : s.reading.isHolding = false) :
      Stepped s (.beginRecord record)
        { s with collector := s.collector.count record, writer := some record }
  | rated (record : Record) (now : Instant) (hw : s.writer = some record) :
      Stepped s (.rate now) { s with collector := (s.collector.rate record now).1, writer := none }
  | skipped (hw : s.writer = none) (hr : s.reading.isHolding = false) :
      Stepped s .skip { s with collector := s.collector.skip }
  | ticked : Stepped s .tick { s with collector := s.collector.tick }
  | copied (time : Instant) (hw : s.writer = none) (hr : s.reading = .waiting) :
      Stepped s (.copy time) { s with reading := .copied s.collector time }
  | readLatest {copy : Collector} {time : Instant} (hr : s.reading = .copied copy time) :
      Stepped s .readLatest { s with reading := .halfway copy time s.collector.ring.latest }
  | readAverage {copy : Collector} {time : Instant} {hits : Nat}
      (hr : s.reading = .halfway copy time hits) :
      Stepped s .readAverage
        { s with
          reading := .done { copy.summary time with
            hitsPerQuantum := hits
            averageHits := s.collector.ring.average } }

theorem isFree_iff {s : Shared} :
    s.isFree = true ↔ s.writer = none ∧ s.reading.isHolding = false := by
  simp [isFree]

theorem stepped_of_step {s t : Shared} {act : Act} (h : s.step act = some t) : Stepped s act t := by
  cases act with
  | beginRecord record =>
    rw [step, Option.ite_none_right_eq_some, isFree_iff] at h
    obtain ⟨⟨hw, hr⟩, he⟩ := h
    cases he
    exact .begun record hw hr
  | rate now =>
    rw [step] at h
    split at h
    · cases h
    · rename_i record hw
      cases h
      exact .rated record now hw
  | skip =>
    rw [step, Option.ite_none_right_eq_some, isFree_iff] at h
    obtain ⟨⟨hw, hr⟩, he⟩ := h
    cases he
    exact .skipped hw hr
  | tick =>
    cases h
    exact .ticked
  | copy time =>
    rw [step] at h
    split at h
    · rename_i hw hr
      cases h
      exact .copied time hw hr
    · cases h
  | readLatest =>
    rw [step] at h
    split at h
    · rename_i copy time hr
      cases h
      exact .readLatest hr
    · cases h
  | readAverage =>
    rw [step] at h
    split at h
    · rename_i copy time hits hr
      cases h
      exact .readAverage hr
    · cases h

def Reached (c : Collector) (s : Shared) : Prop :=
  ∃ es, s.collector = match s.writer with
    | none => c.afterAll es
    | some record => (c.afterAll es).count record

theorem Reached.step {c : Collector} {s t : Shared} {act : Act} (h : Reached c s)
    (hs : Stepped s act t) : Reached c t := by
  obtain ⟨es, he⟩ := h
  cases hs with
  | begun record hw hr =>
    rw [hw] at he
    exact ⟨es, congrArg (·.count record) he⟩
  | rated record now hw =>
    rw [hw] at he
    have hafter : (s.collector.rate record now).1 = (c.afterAll es).after (.hit record now) := by
      rw [he, ← process_eq_rate_count]
      rfl
    refine ⟨es ++ [.hit record now], hafter.trans ?_⟩
    exact (afterAll_append c es [.hit record now]).symm
  | skipped hw hr =>
    rw [hw] at he
    refine ⟨es ++ [.skip], ?_⟩
    rw [hw, afterAll_append, he]
    rfl
  | ticked =>
    refine ⟨es ++ [.tick], ?_⟩
    rw [afterAll_append, he]
    cases s.writer <;> rfl
  | copied | readLatest | readAverage => exact ⟨es, he⟩

theorem Reached.ring_eq {c : Collector} {s : Shared} (h : Reached c s) :
    ∃ es, s.collector.ring = (c.afterAll es).ring := by
  obtain ⟨es, he⟩ := h
  refine ⟨es, ?_⟩
  rw [he]
  cases s.writer <;> rfl

structure Halfway (c : Collector) (acts before : List Act) (p : Shared) (k : Nat) : Prop where
  acts_eq : acts = before ++ .readLatest :: List.replicate k .tick
  run_eq : (start c).run before = some p
  writer_eq : p.writer = none
  reached : ∃ es, p.collector = c.afterAll es

theorem Halfway.tick {c : Collector} {acts before : List Act} {p : Shared} {k : Nat}
    (h : Halfway c acts before p k) : Halfway c (acts ++ [.tick]) before p (k + 1) := by
  refine ⟨?_, h.run_eq, h.writer_eq, h.reached⟩
  rw [h.acts_eq, List.replicate_succ', List.append_assoc, List.cons_append]

def Read (c : Collector) (acts : List Act) (s : Shared) : Reading → Prop
  | .waiting => True
  | .copied copy _ => s.writer = none ∧ ∃ j, s.collector = copy.ticked j
  | .halfway copy _ hits => s.writer = none ∧ ∃ before p j k, Halfway c acts before p k ∧
      p.collector = copy.ticked j ∧ hits = p.collector.ring.latest ∧
      s.collector = p.collector.ticked k
  | .done summary => ∃ upTo after before p k time, acts = upTo ++ .readAverage :: after ∧
      Halfway c upTo before p k ∧ summary = p.collector.summaryAcross k time

namespace Read

variable {c : Collector} {acts : List Act} {s t : Shared} {reading : Reading}

theorem writer_eq (h : Read c acts s reading) (hin : reading.isHolding = true) :
    s.writer = none := by
  cases reading with
  | waiting | done => cases hin
  | copied | halfway => exact h.1

theorem keep (h : Read c acts s reading) (hout : reading.isHolding = false) (act : Act) :
    Read c (acts ++ [act]) t reading := by
  cases reading with
  | waiting => trivial
  | copied | halfway => cases hout
  | done summary =>
    obtain ⟨upTo, after, before, p, k, time, hacts, hhalfway, hsummary⟩ := h
    refine ⟨upTo, after ++ [act], before, p, k, time, ?_, hhalfway, hsummary⟩
    rw [hacts, List.append_assoc, List.cons_append]

theorem tick (h : Read c acts s reading) :
    Read c (acts ++ [.tick]) { s with collector := s.collector.tick } reading := by
  cases reading with
  | waiting | done => exact h.keep rfl .tick
  | copied copy time =>
    obtain ⟨hw, j, hj⟩ := h
    exact ⟨hw, j + 1, by rw [ticked_succ, hj]⟩
  | halfway copy time hits =>
    obtain ⟨hw, before, p, j, k, hhalfway, hj, hhits, hk⟩ := h
    exact ⟨hw, before, p, j, k + 1, hhalfway.tick, hj, hhits, by rw [ticked_succ, hk]⟩

end Read

structure Traced (c : Collector) (acts : List Act) (s : Shared) : Prop where
  run_eq : (start c).run acts = some s
  reached : Reached c s
  read : Read c acts s s.reading

namespace Traced

variable {c : Collector} {acts : List Act} {s t : Shared} {act : Act}

theorem start (c : Collector) : Traced c [] (start c) := ⟨rfl, ⟨[], rfl⟩, trivial⟩

theorem read_step (h : Traced c acts s) (hs : Stepped s act t) :
    Read c (acts ++ [act]) t t.reading := by
  have hread := h.read
  cases hs with
  | begun record hw hr => exact hread.keep hr _
  | rated record now hw =>
    have hr : s.reading.isHolding = false := by
      by_contra hin
      rw [hread.writer_eq (Bool.of_not_eq_false hin)] at hw
      cases hw
    exact hread.keep hr _
  | skipped hw hr => exact hread.keep hr _
  | ticked => exact hread.tick
  | copied time hw hr => exact ⟨hw, 0, rfl⟩
  | @readLatest copy time hr =>
    rw [hr] at hread
    obtain ⟨hw, j, hj⟩ := hread
    have hreached := h.reached
    rw [Reached, hw] at hreached
    exact ⟨hw, acts, s, j, 0, ⟨rfl, h.run_eq, hw, hreached⟩, hj, rfl, rfl⟩
  | @readAverage copy time hits hr =>
    rw [hr] at hread
    obtain ⟨_, before, p, j, k, hhalfway, hj, hhits, hk⟩ := hread
    -- the quanta since the copy have changed none of what it was made for
    have hcopy := summary_ticked copy j time
    rw [← hj] at hcopy
    refine ⟨acts, [], before, p, k, time, rfl, hhalfway, ?_⟩
    rw [summaryAcross, hcopy, hhits, hk]

theorem step (h : Traced c acts s) (hs : s.step act = some t) : Traced c (acts ++ [act]) t := by
  have hstepped := stepped_of_step hs
  refine ⟨?_, h.reached.step hstepped, h.read_step hstepped⟩
  rw [run_append, h.run_eq, Option.bind_eq_bind, Option.bind_some, run_cons hs]
  rfl

theorem of_run (h : (Shared.start c).run acts = some s) : Traced c acts s := by
  induction acts using List.reverseRecOn generalizing s with
  | nil =>
    cases h
    exact start c
  | append_singleton acts act ih =>
    obtain ⟨m, hm, hstep⟩ := run_concat_eq_some h
    exact (ih hm).step hstep

end Traced

theorem run_ticks (s : Shared) (k : Nat) :
    s.run (List.replicate k .tick) = some { s with collector := s.collector.ticked k } := by
  induction k with
  | zero => rfl
  | succ k ih =>
    rw [List.replicate_succ', run_append, ih, ticked_succ]
    rfl

end Shared

def Event.acts : Event → List Act
  | .hit record now => [.beginRecord record, .rate now]
  | .skip => [.skip]
  | .tick => [.tick]

namespace Shared

theorem run_acts (c : Collector) (es : List Event) :
    (start c).run (es.flatMap Event.acts) = some (start (c.afterAll es)) := by
  induction es generalizing c with
  | nil => rfl
  | cons e es ih =>
    have hone : (start c).run e.acts = some (start (c.after e)) := by
      cases e <;> rfl
    rw [List.flatMap_cons, run_append, hone]
    exact ih (c.after e)

theorem run_reads (c : Collector) (k : Nat) (time : Instant) :
    (start c).run (.copy time :: .readLatest :: (List.replicate k .tick ++ [.readAverage])) =
      some ⟨c.ticked k, none, .done (c.summaryAcross k time)⟩ := by
  have hcopy : (start c).step (.copy time) = some ⟨c, none, .copied c time⟩ := rfl
  have hlatest : (⟨c, none, .copied c time⟩ : Shared).step .readLatest =
      some ⟨c, none, .halfway c time c.ring.latest⟩ := rfl
  rw [run_cons hcopy, run_cons hlatest, run_append, run_ticks]
  rfl

theorem run_summary (c : Collector) (es : List Event) (k : Nat) (time : Instant) :
    (start c).run (es.flatMap Event.acts ++
        .copy time :: .readLatest :: (List.replicate k .tick ++ [.readAverage])) =
      some ⟨(c.afterAll es).ticked k, none, .done ((c.afterAll es).summaryAcross k time)⟩ := by
  rw [run_append, run_acts]
  exact run_reads (c.afterAll es) k time

end Shared

/-- A summary has the average of a moment that is some quanta after the moment of all the rest of it,
and each pair of such moments does occur. With no quantum between the two it is a summary of one moment.
Where the window is one quantum, such a summary has the rate of that quantum as its average. -/
theorem summary_of_two_moments {settings : Settings} {c : Collector}
    (hc : create settings = .ok c) :
    (∀ acts s summary, (Shared.start c).run acts = some s → s.reading = .done summary →
      ∃ before k after p time,
        acts = before ++ .readLatest :: (List.replicate k .tick ++ .readAverage :: after) ∧
        (Shared.start c).run before = some p ∧ p.writer = none ∧
        (∃ es, p.collector = c.afterAll es) ∧
        summary = p.collector.summaryAcross k time ∧
        summary = { (p.collector.ticked k).summary time with
          hitsPerQuantum := p.collector.ring.latest } ∧
        (k = 0 → summary = p.collector.summary time)) ∧
    (∀ es k time, ∃ acts s, (Shared.start c).run acts = some s ∧
      s.reading = .done ((c.afterAll es).summaryAcross k time)) ∧
    (settings.alertWindow = settings.quantum → ∀ acts s time average,
      (Shared.start c).run acts = some s →
      let summary := s.collector.summary time
      summary.averageHits = some average →
        average =
          Binary64.ofCount summary.hitsPerQuantum / (Binary64.ofCount 1 * settings.quantum.seconds)) := by
  refine ⟨fun acts s summary hrun hdone => ?_, fun es k time => ?_, ?_⟩
  · have hread := (Shared.Traced.of_run hrun).read
    rw [hdone] at hread
    obtain ⟨upTo, after, before, p, k, time, rfl, hhalfway, rfl⟩ := hread
    refine ⟨before, k, after, p, time, ?_, hhalfway.run_eq, hhalfway.writer_eq, hhalfway.reached, rfl,
      ?_, ?_⟩
    · rw [hhalfway.acts_eq, List.append_assoc, List.cons_append]
    · rw [summary_ticked]
      rfl
    · rintro rfl
      rfl
  · exact ⟨_, _, Shared.run_summary c es k time, rfl⟩
  · intro hone acts s time average hrun
    obtain ⟨es, hring⟩ := (Shared.Traced.of_run hrun).reached.ring_eq
    have htracks := tracks_afterAll hc es
    have hpos := (Rate.Ring.create?_bounds (create?_of_create hc)).1
    rw [← hring] at htracks
    exact htracks.average_of_one_quantum (by rw [hone]; exact Nat.div_self hpos)

theorem summary_of_two_moments_apart :
    let settings := { Settings.default with alertWindow := .ofSeconds 1 }
    let now : Instant := ⟨1000, 0⟩
    let record : Record := ⟨"10.0.0.1", "", "", some ⟨now, 0⟩, "GET /a/b HTTP/1.1", 204, 7⟩
    let acts : List Act := [.beginRecord record, .rate now, .copy now, .readLatest, .tick, .tick,
      .readAverage]
    ∃ c s summary, create settings = .ok c ∧ (Shared.start c).run acts = some s ∧
      s.reading = .done summary ∧
      (∃ before k after p time,
        acts = before ++ .readLatest :: (List.replicate k .tick ++ .readAverage :: after) ∧
        (Shared.start c).run before = some p ∧ summary = p.collector.summaryAcross k time) ∧
      ∀ average, (s.collector.summary now).averageHits = some average →
        average = Binary64.ofCount (s.collector.summary now).hitsPerQuantum /
          (Binary64.ofCount 1 * settings.quantum.seconds) := by
  obtain ⟨c, hc⟩ : ∃ c, create { Settings.default with alertWindow := .ofSeconds 1 } = .ok c := ⟨_, rfl⟩
  intro settings now record acts
  obtain ⟨hread, _, hone⟩ := summary_of_two_moments hc
  have hrun : (Shared.start c).run acts = some _ := Shared.run_summary c [.hit record now] 2 now
  obtain ⟨before, k, after, p, time, hacts, hbefore, _, _, hsummary, _⟩ := hread _ _ _ hrun rfl
  exact ⟨c, _, _, hc, hrun, rfl, ⟨before, k, after, p, time, hacts, hbefore, hsummary⟩,
    fun average => hone rfl _ _ now average hrun⟩

theorem torn_summary :
    let settings := { Settings.default with file := "access.log", alertWindow := .ofSeconds 1 }
    let now : Instant := ⟨1000, 0⟩
    let record : Record := ⟨"10.0.0.1", "", "", some ⟨now, 0⟩, "GET /a/b HTTP/1.1", 204, 7⟩
    settings.validate = .ok () ∧ settings.alertWindow = settings.quantum ∧
    ∃ c s summary average, create settings = .ok c ∧
      (Shared.start c).run [.beginRecord record, .rate now, .tick, .copy now, .readLatest, .tick,
        .readAverage] = some s ∧
      s.reading = .done summary ∧ summary.hitsPerQuantum = 1 ∧ summary.averageHits = some average ∧
      (average == summary.latestRate) = false ∧
      ∀ acts s' time, (Shared.start c).run acts = some s' → s'.collector.summary time ≠ summary := by
  obtain ⟨c, hc⟩ : ∃ c, create { Settings.default with
    file := "access.log", alertWindow := .ofSeconds 1 } = .ok c := ⟨_, rfl⟩
  let es : List Event := [.hit ⟨"10.0.0.1", "", "", some ⟨⟨1000, 0⟩, 0⟩, "GET /a/b HTTP/1.1", 204, 7⟩
    ⟨1000, 0⟩, .tick]
  have htracks (es : List Event) :
      Rate.Tracks (.ofSeconds 1) (.ofSeconds 1) (rates es) (c.afterAll es).ring := tracks_afterAll hc es
  have hlooks (ring : Rate.Ring)
      (hring : Rate.Ring.create? (.ofSeconds 1) (.ofSeconds 1) = some ring) :
      let first := [.record ⟨1000, 0⟩ ⟨1000, 0⟩, .advance].foldl Rate.Ring.after ring
      first.latest = 1 ∧ first.advance.average = some 0.0 := by
    cases hring
    exact ⟨rfl, rfl⟩
  have hrates : rates es = [.record ⟨1000, 0⟩ ⟨1000, 0⟩, .advance] := rfl
  obtain ⟨hlatest, haverage⟩ := hlooks c.ring (create?_of_create hc)
  rw [← hrates, ← ring_afterAll] at hlatest haverage
  refine ⟨rfl, rfl, c, _, _, 0.0, hc, Shared.run_summary c es 1 ⟨1000, 0⟩, rfl, hlatest, haverage,
    ?_, ?_⟩
  · have hrate (summary : Summary) (hquantum : summary.quantum = .ofSeconds 1)
        (hhits : summary.hitsPerQuantum = 1) : (0.0 == summary.latestRate) = false := by
      rw [Summary.latestRate, hquantum, hhits]
      decide
    exact hrate _ (htracks es).quantum_eq hlatest
  -- in each state that is reached the average is that of the latest count
  · intro acts s' time hrun hsame
    obtain ⟨es', hring⟩ := (Shared.Traced.of_run hrun).reached.ring_eq
    have hhits : s'.collector.ring.latest = 1 := (congrArg Summary.hitsPerQuantum hsame).trans hlatest
    have hmean : s'.collector.ring.average = some 0.0 :=
      (congrArg Summary.averageHits hsame).trans haverage
    rw [hring] at hhits hmean
    have hone := (htracks es').average_of_one_quantum rfl hmean
    rw [hhits] at hone
    have hdiffer : (0.0 == Binary64.ofCount 1 /
        (Binary64.ofCount 1 * (Duration.ofSeconds 1).seconds)) = false := by decide +kernel
    rw [← hone] at hdiffer
    revert hdiffer
    decide

end Collector

end TrafficMonitor
