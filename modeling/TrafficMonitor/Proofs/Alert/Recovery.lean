import TrafficMonitor.Proofs.Alert.Lookout
import TrafficMonitor.Proofs.Decimal.Order

namespace TrafficMonitor.Alert

open Time Decimal.Binary64 Rate

theorem rates_append (acts more : List Act) : rates (acts ++ more) = rates acts ++ rates more :=
  List.filterMap_append

namespace Machine

theorem threshold_evaluate (m : Machine) (average : Option Float) (time : Instant) :
    (m.evaluate average time).2.threshold = m.threshold := by
  obtain ⟨status, threshold⟩ := m
  cases average with
  | none => rfl
  | some average =>
    cases status with
    | normal =>
      simp only [evaluate]
      split <;> rfl
    | alerting =>
      simp only [evaluate]
      split <;> rfl

theorem evaluate_zero (m : Machine) (ht : 0.0 ≤ m.threshold) (time : Instant) :
    m.evaluate (some 0.0) time =
      (if m.isAlerting = true then some ⟨true, 0.0, time⟩ else none, ⟨.normal, m.threshold⟩) := by
  obtain ⟨status, threshold⟩ := m
  cases status with
  | normal =>
    have hn : threshold.isNaN = false := by
      rw [Bool.eq_false_iff]
      exact fun hn => not_le_of_isNaN (.inr hn) ht
    have hlt : ¬threshold < 0.0 := fun hlt => (not_le_iff_lt hn (by decide +kernel)).2 hlt ht
    simp [evaluate, isAlerting, hlt]
  | alerting => simp only [evaluate, isAlerting, if_pos ht, beq_self_eq_true, if_true]

end Machine

def Quiet (window quantum : Duration) (acts : List Act) : Prop :=
  ∃ es rest, rates acts = es ++ .advance :: rest ∧
    window.nanoseconds / quantum.nanoseconds < advances (.advance :: rest) ∧
    ∀ e ∈ rest, e.isKept window = false

theorem Quiet.append {window quantum : Duration} {acts more : List Act}
    (h : Quiet window quantum acts) (hmore : ∀ e ∈ rates more, e.isKept window = false) :
    Quiet window quantum (acts ++ more) := by
  obtain ⟨es, rest, hes, hlong, hrest⟩ := h
  refine ⟨es, rest ++ rates more, ?_, ?_, ?_⟩
  · rw [rates_append, hes, List.append_assoc, List.cons_append]
  · rw [← List.cons_append, advances, List.countP_append]
    exact Nat.lt_add_right _ hlong
  · intro e he
    rcases List.mem_append.1 he with he | he
    · exact hrest e he
    · exact hmore e he

structure Watched (window quantum : Duration) (threshold : Float) (acts : List Act)
    (l : Lookout) : Prop where
  tracks : Tracks window quantum (rates acts) l.ring
  threshold_eq : l.machine.threshold = threshold
  average_ne_none : l.machine.status = .alerting → l.ring.average ≠ none

namespace Watched

variable {window quantum : Duration} {threshold : Float} {acts : List Act} {l : Lookout}
  {start : Ring}

theorem create (hr : Ring.create? window quantum = some start) (capacity : Option Nat) :
    Watched window quantum threshold [] (.create start threshold capacity) where
  tracks := Tracks.create hr
  threshold_eq := rfl
  average_ne_none h := by cases h

theorem check (h : Watched window quantum threshold acts l) (now : Instant) :
    Watched window quantum threshold acts (l.check now).2 := by
  refine ⟨?_, ?_, ?_⟩
  · rw [l.check_ring]
    exact h.tracks
  · rw [l.check_machine, Machine.threshold_evaluate, h.threshold_eq]
  · intro hstatus hnone
    rw [l.check_ring] at hnone
    rw [l.check_machine, hnone] at hstatus
    exact h.average_ne_none hstatus hnone

theorem step (hr : Ring.create? window quantum = some start)
    (h : Watched window quantum threshold acts l) (act : Act) :
    Watched window quantum threshold (acts ++ [act]) (l.step act).2 := by
  have hrates (hother : act.rate? = none) : rates (acts ++ [act]) = rates acts := by
    simp [rates, hother]
  have hframe (hother : act.traffic? = none) := l.step_frame hother
  cases act with
  | rate e =>
    refine ⟨?_, h.threshold_eq, fun hstatus => ?_⟩
    · rw [rates_append]
      exact h.tracks.step e
    · exact h.tracks.average_ne_none_step hr (h.average_ne_none hstatus) e
  | check now =>
    have hcheck := h.check now
    exact ⟨by rw [hrates rfl]; exact hcheck.tracks, hcheck.threshold_eq, hcheck.average_ne_none⟩
  | receive | close | fail =>
    obtain ⟨hring, hmachine⟩ := hframe rfl
    refine ⟨?_, ?_, ?_⟩
    · rw [hrates rfl, hring]
      exact h.tracks
    · rw [hmachine, h.threshold_eq]
    · rw [hmachine, hring]
      exact h.average_ne_none

theorem run (hr : Ring.create? window quantum = some start)
    (h : Watched window quantum threshold acts l) (more : List Act) :
    Watched window quantum threshold (acts ++ more) (l.run more).2 := by
  induction more using List.reverseRecOn with
  | nil =>
    rw [List.append_nil]
    exact h
  | append_singleton more act ih =>
    rw [l.run_concat, ← List.append_assoc]
    exact ih.step hr act

theorem exists_hit (hr : Ring.create? window quantum = some start) (ht : 0.0 ≤ threshold)
    (h : Watched window quantum threshold acts l) (now : Instant)
    (hstatus : (l.check now).2.machine.status = .alerting) :
    ∃ i, advances (rates acts) - window.nanoseconds / quantum.nanoseconds ≤ i ∧
      i < advances (rates acts) ∧ 0 < hits window (rates acts) i := by
  by_contra hquiet
  have hsome : l.ring.average ≠ none := by
    rw [← l.check_ring now]
    exact (h.check now).average_ne_none hstatus
  have hzero : l.ring.average = some 0.0 := by
    apply h.tracks.average_eq_zero hr hsome
    intro i hi hi'
    apply Nat.eq_zero_of_not_pos
    exact fun hpos => hquiet ⟨i, hi, hi', hpos⟩
  rw [← h.threshold_eq] at ht
  rw [l.check_machine, hzero, Machine.evaluate_zero _ ht] at hstatus
  cases hstatus

theorem average_eq_zero (hr : Ring.create? window quantum = some start)
    (h : Watched window quantum threshold acts l) (hquiet : Quiet window quantum acts) :
    l.ring.average = some 0.0 := by
  obtain ⟨es, rest, hes, hlong, hrest⟩ := hquiet
  have hadvances : advances (rates acts) = advances es + advances (.advance :: rest) := by
    rw [hes, advances, List.countP_append]
    rfl
  have hhits : hits window (rates acts) = hits window es := by
    funext i
    rw [hes]
    apply hits_append_of_unkept
    intro e he
    rcases List.mem_cons.1 he with rfl | he
    · rfl
    · exact hrest e he
  have hl := (Ring.create?_bounds hr).2.1
  -- The quantum in progress at the first tick has left the window, and no later one has a hit.
  apply h.tracks.average_eq_zero hr
  · rw [h.tracks.average_ne_none_iff hr]
    omega
  · intro i hi _
    rw [hhits]
    exact hits_of_lt window es (by omega)

theorem check_quiet (hr : Ring.create? window quantum = some start) (ht : 0.0 ≤ threshold)
    (h : Watched window quantum threshold acts l) (hquiet : Quiet window quantum acts)
    (now : Instant) :
    (l.check now).1 = (if l.machine.isAlerting = true then some ⟨true, 0.0, now⟩ else none) ∧
      (l.check now).2.machine.status = .normal := by
  rw [← h.threshold_eq] at ht
  rw [l.check_result, l.check_machine, h.average_eq_zero hr hquiet, Machine.evaluate_zero _ ht]
  exact ⟨rfl, rfl⟩

theorem run_quiet (hr : Ring.create? window quantum = some start) (ht : 0.0 ≤ threshold)
    (h : Watched window quantum threshold acts l) (hquiet : Quiet window quantum acts)
    (hnormal : l.machine.status = .normal) (more : List Act)
    (hmore : ∀ e ∈ rates more, e.isKept window = false) :
    emitted (l.run more).1 = [] ∧
      (l.run more).2.machine.status = .normal := by
  induction more using List.reverseRecOn with
  | nil => exact ⟨rfl, hnormal⟩
  | append_singleton more act ih =>
    rw [rates_append] at hmore
    have hmore' : ∀ e ∈ rates more, e.isKept window = false :=
      fun e he => hmore e (List.mem_append_left _ he)
    obtain ⟨hnone, hstatus⟩ := ih hmore'
    have hresults := (l.run more).2.results_step act
    rw [l.run_concat, emitted_append, hnone, List.nil_append, emitted, hresults]
    cases act with
    | check now =>
      obtain ⟨hresult, hlast⟩ := (h.run hr more).check_quiet hr ht (hquiet.append hmore') now
      have hcalm : (l.run more).2.machine.isAlerting = false := by
        simp [Machine.isAlerting, hstatus]
      refine ⟨?_, hlast⟩
      simp only [hresult, hcalm]
      rfl
    | rate e => exact ⟨rfl, hstatus⟩
    | receive | close | fail =>
      refine ⟨rfl, ?_⟩
      rw [(Lookout.step_frame _ rfl).2]
      exact hstatus

end Watched

namespace Lookout

variable {window quantum : Duration} {threshold : Float} {start : Ring}

/-- Whenever a check leaves the machine alerting, one of the completed quanta of the window has a
hit. Once the window and the quantum before it have passed without hits, the next check lifts the
alert if there is one, and none is raised until there are hits again. -/
theorem alert_never_outlives_traffic (hr : Ring.create? window quantum = some start)
    (ht : 0.0 ≤ threshold) (capacity : Option Nat) (acts : List Act) :
    let l := window.nanoseconds / quantum.nanoseconds
    let reached := ((create start threshold capacity).run acts).2
    (∀ now, (reached.check now).2.machine.status = .alerting →
      ∃ i, advances (rates acts) - l ≤ i ∧ i < advances (rates acts) ∧
        0 < hits window (rates acts) i) ∧
    ∀ rest, l + 1 ≤ advances (rates (.rate .advance :: rest)) →
      (∀ e ∈ rates rest, e.isKept window = false) →
      let quiet := (reached.run (.rate .advance :: rest)).2
      quiet.ring.average = some 0.0 ∧
      ∀ now,
        (quiet.check now).1 =
          (if quiet.machine.isAlerting = true then some ⟨true, 0.0, now⟩ else none) ∧
        (quiet.check now).2.machine.status = .normal ∧
        ∀ more, (∀ e ∈ rates more, e.isKept window = false) →
          emitted ((quiet.check now).2.run more).1 = [] ∧
          ((quiet.check now).2.run more).2.machine.status = .normal := by
  intro l reached
  have hreached : Watched window quantum threshold acts reached :=
    (Watched.create hr capacity).run hr acts
  refine ⟨fun now => hreached.exists_hit hr ht now, ?_⟩
  intro rest hlong hunkept last
  have hlast := hreached.run hr (.rate .advance :: rest)
  have hquiet : Quiet window quantum (acts ++ .rate .advance :: rest) :=
    ⟨rates acts, rates rest, rates_append _ _, hlong, hunkept⟩
  refine ⟨hlast.average_eq_zero hr hquiet, fun now => ?_⟩
  obtain ⟨hresult, hnormal⟩ := hlast.check_quiet hr ht hquiet now
  exact ⟨hresult, hnormal, (hlast.check now).run_quiet hr ht hquiet hnormal⟩

theorem alert_never_outlives_traffic_lifted :
    let t : Instant := ⟨1000, 0⟩
    let hit : Act := .rate (.record t t)
    let tick : Act := .rate .advance
    let acts := [hit, hit, hit, tick, .check t]
    ∃ start, Ring.create? (.ofSeconds 2) (.ofSeconds 1) = some start ∧ (0.0 : Float) ≤ 1.0 ∧
      let alerting := ((create start 1.0 none).run acts).2
      let quiet := (alerting.run [tick, tick, tick]).2
      alerting.machine.status = .alerting ∧ quiet.machine.isAlerting = true ∧
        quiet.ring.average = some 0.0 ∧ (quiet.check t).1 = some ⟨true, 0.0, t⟩ := by
  intro t hit tick acts
  have hstatus : (Ring.create? (.ofSeconds 2) (.ofSeconds 1)).all (fun start =>
      let alerting := ((create start 1.0 none).run acts).2
      alerting.machine.status == .alerting &&
        (alerting.run [tick, tick, tick]).2.machine.isAlerting) = true := by decide +kernel
  obtain ⟨start, hr⟩ : ∃ start, Ring.create? (.ofSeconds 2) (.ofSeconds 1) = some start := ⟨_, rfl⟩
  rw [hr, Option.all_some, Bool.and_eq_true, beq_iff_eq] at hstatus
  have ht : (0.0 : Float) ≤ 1.0 := by decide +kernel
  have hlong : 2 + 1 ≤ advances (rates [tick, tick, tick]) := by decide
  have hunkept : ∀ e ∈ rates [tick, tick], e.isKept (.ofSeconds 2) = false := by decide
  obtain ⟨haverage, hcheck⟩ :=
    (alert_never_outlives_traffic hr ht none acts).2 [tick, tick] hlong hunkept
  refine ⟨start, hr, ht, hstatus.1, hstatus.2, haverage, ?_⟩
  rw [(hcheck t).1, if_pos hstatus.2]

end Lookout

end TrafficMonitor.Alert
