import TrafficMonitor.Collector
import TrafficMonitor.Proofs.Rate.History
import TrafficMonitor.Proofs.Sketch.HeavyKeys

namespace TrafficMonitor

open Time Log Sketch

namespace Log

theorem StatusClass.isSome_of?_iff {code : Nat} :
    (StatusClass.of? code).isSome ↔ 100 ≤ code ∧ code ≤ 599 := by
  grind [StatusClass.of?]

namespace StatusCounts

theorem toList_record (s : StatusCounts) (code : Nat) :
    (s.record code).toList =
      List.zipWith (fun k n => if 100 * k ≤ code ∧ code < 100 * (k + 1) then n + 1 else n)
        [1, 2, 3, 4, 5] s.toList := by
  have hclass (k : Nat) : 100 * k ≤ code ∧ code < 100 * (k + 1) ↔ code / 100 = k := by omega
  simp only [hclass, record, StatusClass.of?]
  split
  case h_1 h => split at h <;> simp_all [toList]
  case h_2 c h => split at h <;> cases h <;> simp_all [toList, increment]

theorem toList_foldl_record (codes : List Nat) :
    (codes.foldl record zero).toList =
      [1, 2, 3, 4, 5].map fun k => codes.countP fun code => 100 * k ≤ code ∧ code < 100 * (k + 1) := by
  induction codes using List.reverseRecOn with
  | nil => rfl
  | append_singleton codes code ih =>
    simp only [List.foldl_append, List.foldl_cons, List.foldl_nil, toList_record, ih,
      List.countP_append, List.countP_singleton, List.zipWith_cons_cons, List.map_cons, List.map_nil,
      List.zipWith_nil_right, decide_eq_true_eq]
    simp only [List.cons.injEq, and_true]
    refine ⟨?_, ?_, ?_, ?_, ?_⟩ <;> split <;> rfl

theorem total_increment (s : StatusCounts) (c : StatusClass) : (s.increment c).total = s.total + 1 := by
  cases c <;> simp only [total, increment, toList, List.foldr_cons, List.foldr_nil] <;> omega

theorem total_record (s : StatusCounts) (code : Nat) :
    (s.record code).total = s.total + if 100 ≤ code ∧ code ≤ 599 then 1 else 0 := by
  simp only [← StatusClass.isSome_of?_iff, record]
  cases StatusClass.of? code with
  | none => rfl
  | some c => exact total_increment s c

theorem total_foldl_record (codes : List Nat) :
    (codes.foldl record zero).total = codes.countP fun code => 100 ≤ code ∧ code ≤ 599 := by
  induction codes using List.reverseRecOn with
  | nil => rfl
  | append_singleton codes code ih =>
    rw [List.foldl_append, List.foldl_cons, List.foldl_nil, total_record, ih, List.countP_append,
      List.countP_singleton]
    simp only [decide_eq_true_eq]

end StatusCounts

end Log

namespace Collector

inductive Event where
  | hit (record : Record) (now : Instant)
  | skip
  | tick

def apply (c : Collector) : Event → Except Fault Collector
  | .hit record now =>
    match c.process record now with
    | (c, none) => .ok c
    | (_, some fault) => .error fault
  | .skip => .ok c.skip
  | .tick => .ok c.tick

def run (c : Collector) (es : List Event) : Except Fault Collector := es.foldlM apply c

theorem run_concat (c : Collector) (es : List Event) (e : Event) :
    c.run (es ++ [e]) = c.run es >>= (apply · e) := by
  simp only [run, List.foldlM_append, List.foldlM_cons, List.foldlM_nil, bind_pure]

namespace Event

def record? : Event → Option Record
  | .hit record _ => some record
  | .skip | .tick => none

def isSkip : Event → Bool
  | .skip => true
  | .hit _ _ | .tick => false

def rate? : Event → Option Rate.Event
  | .hit record now => record.timestamp.map fun time => .record time.instant now
  | .skip => none
  | .tick => some .advance

end Event

def records (es : List Event) : List Record := es.filterMap Event.record?

def skips (es : List Event) : Nat := es.countP Event.isSkip

def rates (es : List Event) : List Rate.Event := es.filterMap Event.rate?

def sectionKeys (requests : List String) : List String :=
  requests.filterMap fun request => (RequestLine.parse? request).map fun line => sectionOf line.path

def recordSizes (threshold : Nat) : Nat → RollingHistogram → List Nat → RollingHistogram
  | _, h, [] => h
  | total, h, size :: sizes =>
    recordSizes threshold (total + 1) (recordSize h (total + 1) threshold size) sizes

def folded (c : Collector) (es : List Event) (ring : Rate.Ring) : Collector :=
  let rs := records es
  { totalHits := c.totalHits + rs.length
    skippedLines := c.skippedLines + skips es
    sections := c.sections.addAll (sectionKeys (rs.map (·.request)))
    visitors := (rs.map (·.remoteAddr.toUTF8.toList)).foldl HyperLogLog.add c.visitors
    sizes := recordSizes c.rotationThreshold c.totalHits c.sizes (rs.map (·.size))
    statuses := (rs.map (·.status)).foldl StatusCounts.record c.statuses
    rotationThreshold := c.rotationThreshold
    ring }

theorem recordSizes_append (threshold total : Nat) (h : RollingHistogram) (sizes more : List Nat) :
    recordSizes threshold total h (sizes ++ more) =
      recordSizes threshold (total + sizes.length) (recordSizes threshold total h sizes) more := by
  induction sizes generalizing total h with
  | nil => rfl
  | cons size sizes ih =>
    rw [List.cons_append, recordSizes, ih, recordSizes, List.length_cons, Nat.add_right_comm,
      Nat.add_assoc]

theorem folded_append (c : Collector) (es es' : List Event) (ring ring' : Rate.Ring) :
    (c.folded es ring).folded es' ring' = c.folded (es ++ es') ring' := by
  simp only [folded, records, skips, sectionKeys, TopK.addAll, List.filterMap_append, List.map_append,
    List.length_append, List.countP_append, List.foldl_append, recordSizes_append, List.length_map,
    Nat.add_assoc]

theorem countSection_eq (sections : TopK) (request : String) :
    countSection sections request = sections.addAll (sectionKeys [request]) := by
  cases h : RequestLine.parse? request <;> simp [countSection, sectionKeys, h, TopK.addAll]

theorem count_eq (c : Collector) (record : Record) (now : Instant) (ring : Rate.Ring) :
    { c.count record with ring } = c.folded [.hit record now] ring := by
  simp only [count, countSection_eq]
  rfl

theorem apply_eq (c : Collector) (e : Event) :
    c.apply e = (c.ring.run (rates [e])).map fun after => c.folded [e] after.2 := by
  cases e with
  | hit record now =>
    cases ht : record.timestamp with
    | none =>
      have hrate : rates [.hit record now] = [] := by simp [rates, Event.rate?, ht]
      simp only [apply, process, ht, hrate, ← count_eq]
      rfl
    | some time =>
      have hrate : rates [.hit record now] = [.record time.instant now] := by
        simp [rates, Event.rate?, ht]
      have hring : (c.count record).ring = c.ring := rfl
      simp only [apply, process, ht, hrate, hring, ← count_eq]
      cases hr : c.ring.record time.instant now with
      | error fault => simp [Rate.Ring.run, Rate.Ring.apply, hr, Except.map, bind, Except.bind]
      | ok after => simp [Rate.Ring.run, Rate.Ring.apply, hr, Except.map, bind, Except.bind, pure, Except.pure]
  | skip => rfl
  | tick => rfl

theorem rates_append (es more : List Event) : rates (es ++ more) = rates es ++ rates more :=
  List.filterMap_append

theorem run_eq (c : Collector) (es : List Event) :
    c.run es = (c.ring.run (rates es)).map fun after => c.folded es after.2 := by
  induction es using List.reverseRecOn with
  | nil => rfl
  | append_singleton es e ih =>
    -- the ring alone can fail, so the last event meets the folds of all the others
    rw [run_concat, ih, rates_append, Rate.Ring.run_append]
    cases c.ring.run (rates es) with
    | error fault => rfl
    | ok a =>
      have hring : (c.folded es a.2).ring = a.2 := rfl
      simp only [Except.map, bind, Except.bind, apply_eq, hring]
      cases a.2.run (rates [e]) with
      | error fault => rfl
      | ok b => simp only [folded_append]

theorem run_eq_ok_iff {c c' : Collector} {es : List Event} :
    c.run es = .ok c' ↔
      ∃ counted ring, c.ring.run (rates es) = .ok (counted, ring) ∧ c' = c.folded es ring := by
  rw [run_eq]
  cases c.ring.run (rates es) with
  | error fault => simp [Except.map]
  | ok a =>
    simp only [Except.map, Except.ok.injEq]
    constructor
    · rintro rfl
      exact ⟨a.1, a.2, rfl, rfl⟩
    · rintro ⟨counted, ring, rfl, rfl⟩
      rfl

theorem create_eq_ok {settings : Settings} {c : Collector} (h : create settings = .ok c) :
    ∃ sizes sections ring,
      RollingHistogram.create settings.maxRecordableSize sizeDigits settings.sizeHistory = .ok sizes ∧
      TopK.create sectionEpsilon sectionConfidence settings.sections = .ok sections ∧
      Rate.Ring.create? settings.alertWindow settings.quantum = some ring ∧
      c = ⟨0, 0, sections, .empty (HyperLogLog.precisionFor visitorErrorRate) SipHash.hash, sizes, .zero,
        max settings.sizeRotationThreshold 1, ring⟩ := by
  rw [create] at h
  split at h
  · cases h
  · rename_i ring hring
    split at h
    · cases h
    · rename_i sizes hsizes
      split at h
      · cases h
      · rename_i sections hsections
        cases h
        exact ⟨sizes, sections, ring, hsizes, hsections, hring, rfl⟩

theorem exists_run {settings : Settings} {c : Collector} (hc : create settings = .ok c)
    {es : List Event} (hrange : ∀ e ∈ rates es, e.InRange settings.alertWindow) :
    ∃ d, c.run es = .ok d := by
  obtain ⟨_, _, ring, _, _, hring, rfl⟩ := create_eq_ok hc
  exact ⟨_, run_eq_ok_iff.2 ⟨_, _, Rate.run_eq_after hring hrange, rfl⟩⟩

inductive Part where
  | remoteAddr
  | identity
  | userId
  | timestamp
  | request
  | status
  | size

def replace (record : Record) (other : Record) : Part → Record
  | .remoteAddr => { record with remoteAddr := other.remoteAddr }
  | .identity => { record with identity := other.identity }
  | .userId => { record with userId := other.userId }
  | .timestamp => { record with timestamp := other.timestamp }
  | .request => { record with request := other.request }
  | .status => { record with status := other.status }
  | .size => { record with size := other.size }

inductive Event.Differs (part : Part) : Event → Event → Prop
  | hit (record other : Record) (now : Instant) :
      Differs part (.hit record now) (.hit (replace record other part) now)
  | skip : Differs part .skip .skip
  | tick : Differs part .tick .tick

structure Keeps (part : Part) (record changed : Record) : Prop where
  remoteAddr : part ≠ .remoteAddr → changed.remoteAddr = record.remoteAddr
  timestamp : part ≠ .timestamp → changed.timestamp = record.timestamp
  request : part ≠ .request → changed.request = record.request
  status : part ≠ .status → changed.status = record.status
  size : part ≠ .size → changed.size = record.size

theorem keeps_replace (part : Part) (record other : Record) :
    Keeps part record (replace record other part) := by
  cases part <;> constructor <;> simp [replace]

section Differs

variable {part : Part} {es es' : List Event}

theorem filterMap_eq_of_differs {α : Type} {f : Event → Option α}
    (hf : ∀ e e', e.Differs part e' → f e' = f e) (h : List.Forall₂ (Event.Differs part) es es') :
    es'.filterMap f = es.filterMap f := by
  induction h with
  | nil => rfl
  | cons he _ ih => rw [List.filterMap_cons, List.filterMap_cons, hf _ _ he, ih]

theorem map_records_eq_of_differs {α : Type} {f : Record → α}
    (hf : ∀ record other, f (replace record other part) = f record)
    (h : List.Forall₂ (Event.Differs part) es es') : (records es').map f = (records es).map f := by
  simp only [records, List.map_filterMap]
  apply filterMap_eq_of_differs _ h
  intro e e' he
  cases he with
  | hit record other now => simp only [Event.record?, Option.map_some, hf]
  | skip | tick => rfl

theorem length_records_eq_of_differs (h : List.Forall₂ (Event.Differs part) es es') :
    (records es').length = (records es).length := by
  simpa using congrArg List.length (map_records_eq_of_differs (f := fun _ => ()) (fun _ _ => rfl) h)

theorem skips_eq_of_differs (h : List.Forall₂ (Event.Differs part) es es') :
    skips es' = skips es := by
  induction h with
  | nil => rfl
  | @cons e e' es es' he _ ih =>
    have hskip : e'.isSkip = e.isSkip := by cases he <;> rfl
    simp only [skips] at ih
    simp only [skips, List.countP_cons, hskip, ih]

theorem rates_eq_of_differs (hp : part ≠ .timestamp) (h : List.Forall₂ (Event.Differs part) es es') :
    rates es' = rates es := by
  apply filterMap_eq_of_differs _ h
  intro e e' he
  cases he with
  | hit record other now => simp only [Event.rate?, (keeps_replace part record other).timestamp hp]
  | skip | tick => rfl

theorem aggregates_eq_of_differs {c d d' : Collector} (h : List.Forall₂ (Event.Differs part) es es')
    (hd : c.run es = .ok d) (hd' : c.run es' = .ok d') :
    d'.totalHits = d.totalHits ∧ d'.skippedLines = d.skippedLines ∧
    (part ≠ .status → d'.statuses = d.statuses) ∧
    (part ≠ .request → d'.sections = d.sections) ∧
    (part ≠ .remoteAddr → d'.visitors = d.visitors) ∧
    (part ≠ .size → d'.sizes = d.sizes) ∧
    (part ≠ .timestamp → d'.ring = d.ring) := by
  obtain ⟨counted, ring, hring, rfl⟩ := run_eq_ok_iff.1 hd
  obtain ⟨counted', ring', hring', rfl⟩ := run_eq_ok_iff.1 hd'
  have hkeeps := keeps_replace part
  simp only [folded, length_records_eq_of_differs h, skips_eq_of_differs h, true_and]
  refine ⟨fun hp => ?_, fun hp => ?_, fun hp => ?_, fun hp => ?_, fun hp => ?_⟩
  · rw [map_records_eq_of_differs (fun r o => (hkeeps r o).status hp) h]
  · rw [map_records_eq_of_differs (fun r o => (hkeeps r o).request hp) h]
  · have hbytes := fun r o => congrArg (·.toUTF8.toList) ((hkeeps r o).remoteAddr hp)
    rw [map_records_eq_of_differs hbytes h]
  · rw [map_records_eq_of_differs (fun r o => (hkeeps r o).size hp) h]
  -- with the same events for the ring both runs of it are one
  · rw [rates_eq_of_differs hp h, hring] at hring'
    exact (congrArg Prod.snd (Except.ok.inj hring')).symm

end Differs

/-- The collector is the product of independent folds: each aggregate is what a fresh one becomes by
its own part of the records alone, so that a change of another part leaves it as it is. -/
theorem run_eq_independent_folds {settings : Settings} {c c' : Collector} {es : List Event}
    (hc : create settings = .ok c) (hrun : c.run es = .ok c') :
    let rs := records es
    c'.totalHits = rs.length ∧ c'.skippedLines = skips es ∧
    c'.statuses.toList =
      [1, 2, 3, 4, 5].map (fun k => rs.countP fun r => 100 * k ≤ r.status ∧ r.status < 100 * (k + 1)) ∧
    c'.statuses.total = rs.countP (fun r => 100 ≤ r.status ∧ r.status ≤ 599) ∧
    c'.statuses.total ≤ c'.totalHits ∧
    (∃ fresh, TopK.create sectionEpsilon sectionConfidence settings.sections = .ok fresh ∧
      c'.sections = fresh.addAll
        (rs.filterMap fun r => (RequestLine.parse? r.request).map fun line => sectionOf line.path)) ∧
    c'.visitors = (rs.map fun r => r.remoteAddr.toUTF8.toList).foldl HyperLogLog.add
      (.empty (HyperLogLog.precisionFor visitorErrorRate) SipHash.hash) ∧
    (∃ fresh, RollingHistogram.create settings.maxRecordableSize sizeDigits settings.sizeHistory =
        .ok fresh ∧
      c'.sizes = recordSizes (max settings.sizeRotationThreshold 1) 0 fresh (rs.map (·.size))) ∧
    (∃ fresh counted, Rate.Ring.create? settings.alertWindow settings.quantum = some fresh ∧
      fresh.run (rates es) = .ok (counted, c'.ring)) ∧
    ∀ part es', List.Forall₂ (Event.Differs part) es es' →
      (part ≠ .timestamp → ∃ d, c.run es' = .ok d) ∧
      ∀ d, c.run es' = .ok d →
        d.totalHits = c'.totalHits ∧ d.skippedLines = c'.skippedLines ∧
        (part ≠ .status → d.statuses = c'.statuses) ∧
        (part ≠ .request → d.sections = c'.sections) ∧
        (part ≠ .remoteAddr → d.visitors = c'.visitors) ∧
        (part ≠ .size → d.sizes = c'.sizes) ∧
        (part ≠ .timestamp → d.ring = c'.ring) := by
  intro rs
  obtain ⟨counted, ring, hring, rfl⟩ := run_eq_ok_iff.1 hrun
  obtain ⟨fresh, top, start, hfresh, htop, hstart, rfl⟩ := create_eq_ok hc
  have htotal : ((rs.map (·.status)).foldl StatusCounts.record .zero).total =
      rs.countP fun r => 100 ≤ r.status ∧ r.status ≤ 599 := by
    rw [StatusCounts.total_foldl_record, List.countP_map]
    rfl
  refine ⟨Nat.zero_add _, Nat.zero_add _, ?_, htotal, ?_, ⟨top, htop, ?_⟩, rfl, ⟨fresh, hfresh, rfl⟩,
    ⟨start, counted, hstart, hring⟩, ?_⟩
  · simp only [folded, StatusCounts.toList_foldl_record, List.countP_map]
    rfl
  · exact htotal.trans_le (List.countP_le_length.trans (Nat.le_add_left _ 0))
  · simp only [folded, sectionKeys, List.filterMap_map]
    rfl
  · intro part es' h
    refine ⟨fun hp => ?_, fun d hd => aggregates_eq_of_differs h hrun hd⟩
    have hsame := rates_eq_of_differs hp h
    exact ⟨_, run_eq_ok_iff.2 ⟨counted, ring, hsame ▸ hring, rfl⟩⟩

theorem run_eq_independent_folds_mixed :
    let now : Instant := ⟨1000, 0⟩
    let record : Record := ⟨"10.0.0.1", "", "", some ⟨now, 0⟩, "GET /a/b HTTP/1.1", 204, 7⟩
    let es : List Event :=
      [.hit record now, .skip, .tick, .hit { record with request := "?", status := 700 } now]
    ∃ c d, create .default = .ok c ∧ c.run es = .ok d ∧ d.totalHits = 2 ∧ d.skippedLines = 1 ∧
      d.statuses.toList = [0, 1, 0, 0, 0] ∧ d.statuses.total = 1 ∧
      ∃ fresh, TopK.create sectionEpsilon sectionConfidence 5 = .ok fresh ∧
        d.sections = fresh.addAll ["/a"] := by
  intro now record es
  obtain ⟨c, hc⟩ : ∃ c, create .default = .ok c := ⟨_, rfl⟩
  have hstart : (now.minus? Settings.default.alertWindow).isSome := by decide
  have hrates : rates es = [.record now now, .advance, .record now now] := rfl
  have hrange : ∀ e ∈ rates es, e.InRange Settings.default.alertWindow := by
    simp [hrates, Rate.Event.InRange, hstart]
  obtain ⟨d, hd⟩ := exists_run hc hrange
  obtain ⟨hhits, hskips, hstatuses, htotal, _, hsections, _⟩ := run_eq_independent_folds hc hd
  have hkeys : (records es).filterMap (fun r =>
      (RequestLine.parse? r.request).map fun line => sectionOf line.path) = ["/a"] := by decide
  rw [hkeys] at hsections
  exact ⟨c, d, hc, hd, hhits, hskips, hstatuses, htotal, hsections⟩

end Collector

end TrafficMonitor
