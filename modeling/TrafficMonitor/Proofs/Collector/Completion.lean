import TrafficMonitor.Proofs.Collector.Folds
import TrafficMonitor.Proofs.Rate.Saturation

namespace TrafficMonitor

open Time Log Sketch

namespace Time.Instant

def timeBeforeEpoch : Duration := .ofSeconds 8334601228800

theorem isSome_minus?_iff {t : Instant} {d : Duration}
    (ht : earliestSecond ≤ t.seconds) :
    (t.minus? d).isSome ↔
      (d.nanoseconds : Int) ≤ (t.seconds - earliestSecond) * Duration.nanosPerSecond + t.nanos := by
  have hunit : (Duration.nanosPerSecond : Int) = 1000000000 := rfl
  rw [minus?]
  dsimp only
  by_cases hleap : (Duration.nanosPerSecond ≤ t.nanos && d.nanoseconds < Duration.nanosPerSecond) = true
  · rw [if_pos hleap]
    refine iff_of_true rfl ?_
    rw [Bool.and_eq_true, decide_eq_true_eq, decide_eq_true_eq] at hleap
    rw [hunit]
    omega
  · rw [if_neg hleap, hunit]
    by_cases hearly : (t.seconds * 1000000000 + t.nanos - d.nanoseconds) / 1000000000 < earliestSecond
    · rw [if_pos hearly]
      refine iff_of_false Bool.false_ne_true ?_
      omega
    · rw [if_neg hearly]
      refine iff_of_true rfl ?_
      omega

end Time.Instant

namespace Rate.Ring

variable {r : Ring} {hit now : Instant}

theorem record_of_minus?_eq_none (h : now.minus? r.window = none) :
    r.record hit now = .error .beforeEarliest := by
  rw [record, h]

theorem after_of_minus?_eq_none (h : now.minus? r.window = none) :
    r.after (.record hit now) = r := by
  simp only [after, apply, record_of_minus?_eq_none h]

theorem record_of_isSome_minus? (h : (now.minus? r.window).isSome) :
    ∃ counted, r.record hit now = .ok (counted, r.after (.record hit now)) := by
  obtain ⟨start, hstart⟩ := Option.isSome_iff_exists.1 h
  have hok : ∃ counted ring, r.record hit now = .ok (counted, ring) := by
    rw [record, hstart]
    dsimp only
    split <;> exact ⟨_, _, rfl⟩
  obtain ⟨counted, ring, hok⟩ := hok
  exact ⟨counted, by simp only [after, apply, hok]⟩

end Rate.Ring

namespace Collector

def after (c : Collector) : Event → Collector
  | .hit record now => (c.process record now).1
  | .skip => c.skip
  | .tick => c.tick

def afterAll (c : Collector) (es : List Event) : Collector := es.foldl after c

theorem afterAll_append (c : Collector) (es more : List Event) :
    c.afterAll (es ++ more) = (c.afterAll es).afterAll more := List.foldl_append

section Process

variable {c : Collector} {record : Record} {now : Instant}

theorem process_of_unstamped (h : record.timestamp = none) :
    c.process record now = (c.folded [.hit record now] c.ring, none) := by
  rw [process, h, ← count_eq]
  rfl

theorem process_of_judged {time : ZonedInstant} (h : record.timestamp = some time)
    (hw : (now.minus? c.ring.window).isSome) :
    c.process record now =
      (c.folded [.hit record now] (c.ring.after (.record time.instant now)), none) := by
  have hring : (c.count record).ring = c.ring := rfl
  obtain ⟨counted, hr⟩ : ∃ counted, c.ring.record time.instant now =
      .ok (counted, c.ring.after (.record time.instant now)) := Rate.Ring.record_of_isSome_minus? hw
  simp only [process, h, hring, hr, ← count_eq]

theorem process_of_unjudged {time : ZonedInstant} (h : record.timestamp = some time)
    (hw : now.minus? c.ring.window = none) :
    c.process record now = (c.folded [.hit record now] c.ring, some .beforeEarliest) := by
  have hring : (c.count record).ring = c.ring := rfl
  simp only [process, h, hring, Rate.Ring.record_of_minus?_eq_none hw, ← count_eq]
  rfl

theorem process_fault_eq_none_iff :
    (c.process record now).2 = none ↔
      record.timestamp = none ∨ (now.minus? c.ring.window).isSome := by
  cases h : record.timestamp with
  | none => simp [process_of_unstamped h]
  | some time =>
    cases hw : now.minus? c.ring.window with
    | none => simp [process_of_unjudged h hw]
    | some start => simp [process_of_judged h (Option.isSome_of_eq_some hw)]

theorem rates_hit (record : Record) (now : Instant) :
    rates [.hit record now] = (record.timestamp.map fun time => .record time.instant now).toList := by
  cases h : record.timestamp <;> simp [rates, Event.rate?, h]

theorem folded_of_completed (h : (c.process record now).2 = none) :
    let d := (c.process record now).1
    d = c.folded [.hit record now] d.ring ∧ (record.timestamp = none → d.ring = c.ring) ∧
    ∀ time, record.timestamp = some time →
      ∃ counted, c.ring.record time.instant now = .ok (counted, d.ring) := by
  cases ht : record.timestamp with
  | none =>
    rw [process_of_unstamped ht]
    exact ⟨rfl, fun _ => rfl, nofun⟩
  | some time =>
    have hw : (now.minus? c.ring.window).isSome :=
      (process_fault_eq_none_iff.1 h).resolve_left (by simp [ht])
    rw [process_of_judged ht hw]
    refine ⟨rfl, nofun, fun time' htime => ?_⟩
    obtain rfl := Option.some.inj htime
    exact Rate.Ring.record_of_isSome_minus? hw

theorem folded_of_faulted (h : (c.process record now).2 ≠ none) :
    c.process record now = (c.folded [.hit record now] c.ring, some .beforeEarliest) := by
  rw [Ne, process_fault_eq_none_iff, not_or, Option.not_isSome_iff_eq_none] at h
  obtain ⟨time, ht⟩ := Option.ne_none_iff_exists'.1 h.1
  exact process_of_unjudged ht h.2

theorem after_eq (c : Collector) (e : Event) :
    c.after e = c.folded [e] ((rates [e]).foldl Rate.Ring.after c.ring) := by
  cases e with
  | skip => rfl
  | tick => rfl
  | hit record now =>
    rw [after, rates_hit]
    cases h : record.timestamp with
    | none => exact congrArg Prod.fst (process_of_unstamped h)
    | some time =>
      cases hw : now.minus? c.ring.window with
      | none =>
        rw [process_of_unjudged h hw]
        simp [Rate.Ring.after_of_minus?_eq_none hw]
      | some start =>
        rw [process_of_judged h (Option.isSome_of_eq_some hw)]
        rfl

theorem afterAll_eq (c : Collector) (es : List Event) :
    c.afterAll es = c.folded es ((rates es).foldl Rate.Ring.after c.ring) := by
  induction es using List.reverseRecOn with
  | nil => rfl
  | append_singleton es e ih =>
    have hone : (c.afterAll es).afterAll [e] = (c.afterAll es).after e := rfl
    rw [afterAll_append, hone, ih, after_eq, folded_append, rates_append, List.foldl_append]
    rfl

theorem ring_afterAll (c : Collector) (es : List Event) :
    (c.afterAll es).ring = (rates es).foldl Rate.Ring.after c.ring := by
  rw [afterAll_eq]
  rfl

theorem create?_of_create {settings : Settings} (hc : create settings = .ok c) :
    Rate.Ring.create? settings.alertWindow settings.quantum = some c.ring := by
  obtain ⟨_, _, ring, _, _, hring, rfl⟩ := create_eq_ok hc
  exact hring

theorem tracks_afterAll {settings : Settings} (hc : create settings = .ok c) (es : List Event) :
    Rate.Tracks settings.alertWindow settings.quantum (rates es) (c.afterAll es).ring := by
  rw [ring_afterAll]
  exact .foldl_after (create?_of_create hc) (rates es)

end Process

/-- A call completes just if the record has no time or the window before the present starts in range;
then the record is in every aggregate that it feeds. Otherwise it is in all of them but the ring. So
all calls of the years 1970 to 2100 complete just if the window is no longer than the time before the
first of them. -/
theorem process_completes_iff {settings : Settings} {c : Collector}
    (hc : create settings = .ok c) :
    ((∀ es record now, 0 ≤ now.seconds → now.seconds < 4133980800 →
        ((c.afterAll es).process record now).2 = none) ↔
      settings.alertWindow.nanoseconds ≤ Instant.timeBeforeEpoch.nanoseconds) ∧
    ∀ es record now, Instant.earliestSecond ≤ now.seconds →
      let d := c.afterAll es
      let after := d.process record now
      (after.2 = none ↔ record.timestamp = none ∨
        (settings.alertWindow.nanoseconds : Int) ≤
          (now.seconds - Instant.earliestSecond) * Duration.nanosPerSecond + now.nanos) ∧
      (after.2 = none → after.1 = d.folded [.hit record now] after.1.ring ∧
        (record.timestamp = none → after.1.ring = d.ring) ∧
        ∀ time, record.timestamp = some time →
          ∃ counted, d.ring.record time.instant now = .ok (counted, after.1.ring)) ∧
      (after.2 ≠ none →
        after.2 = some .beforeEarliest ∧ after.1 = d.folded [.hit record now] d.ring) := by
  have hwindow (es : List Event) : (c.afterAll es).ring.window = settings.alertWindow :=
    (tracks_afterAll hc es).window_eq
  have hcompletes (es : List Event) (record : Record) (now : Instant)
      (hnow : Instant.earliestSecond ≤ now.seconds) :
      ((c.afterAll es).process record now).2 = none ↔ record.timestamp = none ∨
        (settings.alertWindow.nanoseconds : Int) ≤
          (now.seconds - Instant.earliestSecond) * Duration.nanosPerSecond + now.nanos := by
    rw [process_fault_eq_none_iff, hwindow es, Instant.isSome_minus?_iff hnow]
  have hunit : (Duration.nanosPerSecond : Int) = 1000000000 := rfl
  have hepoch : Instant.timeBeforeEpoch.nanoseconds = 8334601228800000000000 := rfl
  have hearliest : Instant.earliestSecond = -8334601228800 := rfl
  refine ⟨⟨fun hall => ?_, fun hle es record now hnow _ => ?_⟩, fun es record now hnow => ?_⟩
  -- the first moment of 1970 is the one that asks most of the window
  · have hfirst := hall [] ⟨"", "", "", some ⟨⟨0, 0⟩, 0⟩, "", 0, 0⟩ ⟨0, 0⟩ (Int.le_refl 0) (by decide)
    have hle := ((hcompletes _ _ _ (by decide)).1 hfirst).resolve_left (by simp)
    rw [hunit, hearliest] at hle
    dsimp only at hle
    omega
  · apply (hcompletes es record now (by omega)).2
    right
    rw [hunit, hearliest]
    omega
  · refine ⟨hcompletes es record now hnow, folded_of_completed, fun hfault => ?_⟩
    rw [folded_of_faulted hfault]
    exact ⟨rfl, rfl⟩

theorem process_completes_iff_epoch :
    let settings := { Settings.default with
      alertWindow := Instant.timeBeforeEpoch
      quantum := .ofSeconds 1000000000 }
    let now : Instant := ⟨0, 0⟩
    let record : Record := ⟨"10.0.0.1", "", "", some ⟨now, 0⟩, "GET /a/b HTTP/1.1", 204, 7⟩
    ∃ c, create settings = .ok c ∧ (c.process record now).2 = none ∧
      ∃ counted, c.ring.record now now = .ok (counted, (c.process record now).1.ring) := by
  obtain ⟨c, hc⟩ : ∃ c, create { Settings.default with
    alertWindow := Instant.timeBeforeEpoch
    quantum := .ofSeconds 1000000000 } = .ok c := ⟨_, rfl⟩
  intro settings now record
  obtain ⟨hall, hone⟩ := process_completes_iff hc
  have hnone := hall.2 (Nat.le_refl _) [] record now (Int.le_refl 0) (by decide)
  exact ⟨c, hc, hnone, ((hone [] record now (by decide)).2.1 hnone).2.2 ⟨now, 0⟩ rfl⟩

theorem process_faults_of_valid_settings :
    let settings := { Settings.default with
      file := "access.log"
      alertWindow := .ofSeconds 9000000000000
      quantum := .ofSeconds 1000000000 }
    let now : Instant := ⟨1767225600, 0⟩
    let record : Record := ⟨"10.0.0.1", "", "", some ⟨now, 0⟩, "GET /a/b HTTP/1.1", 204, 7⟩
    settings.validate = .ok () ∧ ∃ c d, create settings = .ok c ∧
      c.process record now = (d, some .beforeEarliest) ∧
      d.totalHits = 1 ∧ d.sections = c.sections.add "/a" ∧
      d.visitors = c.visitors.add record.remoteAddr.toUTF8.toList ∧
      d.sizes = recordSize c.sizes 1 c.rotationThreshold 7 ∧ d.statuses.successful = 1 ∧
      d.ring = c.ring := by
  obtain ⟨c, hc⟩ : ∃ c, create { Settings.default with
    file := "access.log"
    alertWindow := .ofSeconds 9000000000000
    quantum := .ofSeconds 1000000000 } = .ok c := ⟨_, rfl⟩
  obtain ⟨_, _, _, _, _, _, he⟩ := create_eq_ok hc
  have hwindow : (⟨1767225600, 0⟩ : Instant).minus? c.ring.window = none := by
    have hring : c.ring.window = .ofSeconds 9000000000000 := (tracks_afterAll hc []).window_eq
    rw [hring]
    decide
  have hkeys : sectionKeys ["GET /a/b HTTP/1.1"] = ["/a"] := by decide
  refine ⟨rfl, c, _, hc, process_of_unjudged rfl hwindow, ?_⟩
  subst he
  exact ⟨rfl, congrArg (TopK.addAll _) hkeys, rfl, rfl, rfl, rfl⟩

end Collector

end TrafficMonitor
