import TrafficMonitor.Proofs.Alert.Lookout

namespace TrafficMonitor.Alert

open Time Report

def Crossing.untimed (alert : Crossing) : Bool × Float := (alert.recovered, alert.average)

def traffic (acts : List Act) : List Traffic := acts.filterMap Act.traffic?

def line (alert : Crossing) : String := alert.text ++ "\n"

namespace Hook

def hasRoom (h : Hook) : Bool := h.listening && decide (h.waiting.length < h.capacity)

theorem offer_eq (h : Hook) (alert : Crossing) :
    h.offer alert =
      if h.listening = true then
        some { h with waiting := h.waiting ++ if h.hasRoom = true then [alert] else [] }
      else none := by
  obtain ⟨capacity, waiting, listening⟩ := h
  cases listening with
  | false => rfl
  | true =>
    by_cases hroom : waiting.length < capacity
    · simp [offer, hasRoom, hroom]
    · simp [offer, hasRoom, hroom]

end Hook

namespace Outcome

@[simp] def offered? : Outcome → Option Crossing
  | .checked result (some _) _ => result
  | .checked _ none _ | .taken _ | .dropped _ => none

@[simp] def admitted? : Outcome → Option Crossing
  | .checked result (some hook) _ => if hook.hasRoom then result else none
  | .checked _ none _ | .taken _ | .dropped _ => none

@[simp] def foundDeaf : Outcome → Bool
  | .checked (some _) (some hook) _ => !hook.listening
  | .checked .. | .taken _ | .dropped _ => false

@[simp] def taken? : Outcome → Option Crossing
  | .taken alert => some alert
  | .checked .. | .dropped _ => none

@[simp] def left : Outcome → List Crossing
  | .dropped alerts => alerts
  | .checked .. | .taken _ => []

@[simp] def written? : Outcome → Option Crossing
  | .checked result _ failing => if failing then none else result
  | .taken _ | .dropped _ => none

end Outcome

theorem Machine.evaluate_untimed (m : Machine) (average : Option Float) (s t : Instant) :
    (m.evaluate average s).1.map Crossing.untimed = (m.evaluate average t).1.map Crossing.untimed ∧
      (m.evaluate average s).2 = (m.evaluate average t).2 := by
  obtain ⟨status, threshold⟩ := m
  cases average with
  | none => exact ⟨rfl, rfl⟩
  | some average =>
    cases status with
    | normal =>
      by_cases h : average > threshold
      · simp [evaluate, h, Crossing.untimed]
      · simp [evaluate, h]
    | alerting =>
      by_cases h : average ≤ threshold
      · simp [evaluate, h, Crossing.untimed]
      · simp [evaluate, h]

namespace Lookout

def undisturbed (r : Rate.Ring) (m : Machine) :
    List Traffic → List (Option (Bool × Float)) × Rate.Ring × Machine
  | [] => ([], r, m)
  | .rate e :: more => undisturbed (r.after e) m more
  | .check :: more =>
    let answer := m.evaluate r.average default
    let after := undisturbed r answer.2 more
    (answer.1.map Crossing.untimed :: after.1, after.2)

theorem run_eq_undisturbed (l : Lookout) (acts : List Act) :
    ((results (l.run acts).1).map (Option.map Crossing.untimed), (l.run acts).2.ring,
      (l.run acts).2.machine) = undisturbed l.ring l.machine (traffic acts) := by
  induction acts generalizing l with
  | nil => rfl
  | cons act acts ih =>
    have hresults := l.results_step act
    have hframe (hother : act.traffic? = none) := l.step_frame hother
    have ih := ih (l.step act).2
    simp only [run, results_append, List.map_append, hresults]
    cases act with
    | rate e => exact ih
    | check now =>
      obtain ⟨hresult, hmachine⟩ := l.machine.evaluate_untimed l.ring.average now default
      have hnext : (l.step (.check now)).2 = (l.check now).2 := rfl
      rw [hnext, l.check_ring, l.check_machine, hmachine] at ih
      have htraffic : traffic (.check now :: acts) = .check :: traffic acts := rfl
      simp only [htraffic, undisturbed]
      rw [← ih, ← hresult, ← l.check_result]
      rfl
    | receive | close | fail =>
      obtain ⟨hring, hmachine⟩ := hframe rfl
      rw [hring, hmachine] at ih
      exact ih

end Lookout

structure Delivered (outcomes : List Outcome) (hook? : Option Hook) : Prop where
  admitted_eq : outcomes.filterMap Outcome.admitted? =
    outcomes.filterMap Outcome.taken? ++ outcomes.flatMap Outcome.left ++ hook?.elim [] Hook.waiting
  left_eq_nil : ∀ hook, hook? = some hook → hook.listening = true →
    outcomes.flatMap Outcome.left = []
  waiting_eq_nil : ∀ hook, hook? = some hook → hook.listening = false → hook.waiting = []

namespace Delivered

variable {outcomes : List Outcome} {hook? : Option Hook} {hook : Hook}

theorem create (capacity : Option Nat) : Delivered [] (capacity.map Hook.create) := by
  refine ⟨?_, fun _ _ _ => rfl, ?_⟩
  · cases capacity <;> rfl
  · rintro hook h hlistening
    rw [Option.map_eq_some_iff] at h
    obtain ⟨n, -, rfl⟩ := h
    rfl

theorem check (h : Delivered outcomes hook?) (result : Option Crossing) (failing : Bool) :
    Delivered (outcomes ++ [.checked result hook? failing])
      (result.elim hook? fun alert => hook?.bind (·.offer alert)) := by
  have hadmitted := h.admitted_eq
  have hleft : (outcomes ++ [Outcome.checked result hook? failing]).flatMap Outcome.left =
      outcomes.flatMap Outcome.left := by simp
  cases hook? with
  | none =>
    refine ⟨?_, ?_, ?_⟩
    · cases result <;> simpa [List.filterMap_cons] using hadmitted
    · cases result <;> simp
    · cases result <;> simp
  | some hook =>
    cases result with
    | none =>
      refine ⟨?_, ?_, h.waiting_eq_nil⟩
      · simpa [List.filterMap_cons] using hadmitted
      · rw [hleft]
        exact h.left_eq_nil
    | some alert =>
      simp only [Option.elim_some, Option.bind_some, Hook.offer_eq]
      cases hlistening : hook.listening with
      | false =>
        -- The hook is given up, but nothing waits in a hook without a listener.
        have hwaiting := h.waiting_eq_nil hook rfl hlistening
        refine ⟨?_, by simp, by simp⟩
        simpa [List.filterMap_cons, hwaiting, Hook.hasRoom, hlistening] using hadmitted
      | true =>
        refine ⟨?_, ?_, by simp⟩
        · cases hroom : hook.hasRoom <;> simp [hadmitted, List.filterMap_cons, hroom]
        · intro _ _ _
          rw [hleft]
          exact h.left_eq_nil hook rfl hlistening

theorem receive (h : Delivered outcomes hook?) :
    Delivered
      (outcomes ++ (hook?.bind fun hook => hook.receive.1).toList.map .taken)
      (hook?.map fun hook => hook.receive.2) := by
  cases hook? with
  | none => simpa using h
  | some hook =>
    have hadmitted := h.admitted_eq
    obtain ⟨capacity, _ | ⟨alert, more⟩, listening⟩ := hook
    case nil => simpa [Hook.receive] using h
    case cons =>
      -- What waits has a listener, and as long as there is one nothing was left behind.
      have hlistening : listening = true := by
        by_contra hdeaf
        have hnil := h.waiting_eq_nil _ rfl (Bool.eq_false_iff.2 hdeaf)
        cases hnil
      have hleft := h.left_eq_nil _ rfl hlistening
      refine ⟨?_, ?_, ?_⟩
      · simp [hadmitted, hleft, Hook.receive, List.filterMap_cons]
      · intro _ _ _
        simpa [Hook.receive] using hleft
      · rintro _ ⟨⟩ hdeaf
        rw [hlistening] at hdeaf
        cases hdeaf

theorem close (h : Delivered outcomes hook?) :
    Delivered (outcomes ++ hook?.toList.map fun hook => .dropped hook.waiting)
      (hook?.map Hook.close) := by
  cases hook? with
  | none => simpa using h
  | some hook =>
    have hadmitted := h.admitted_eq
    refine ⟨?_, ?_, ?_⟩
    · simp [hadmitted, Hook.close, List.filterMap_cons]
    · rintro _ ⟨⟩ hlistening
      cases hlistening
    · rintro _ ⟨⟩ _
      rfl

theorem step {l : Lookout} (h : Delivered outcomes l.hook) (act : Act) :
    Delivered (outcomes ++ (l.step act).1) (l.step act).2.hook := by
  cases act with
  | rate | fail =>
    rw [Lookout.step, List.append_nil]
    exact h
  | check now =>
    have hchecked := h.check (l.check now).1 l.sink.failing
    rw [← l.check_hook] at hchecked
    exact hchecked
  | receive => exact h.receive
  | close => exact h.close

theorem run {l : Lookout} (h : Delivered outcomes l.hook) (acts : List Act) :
    Delivered (outcomes ++ (l.run acts).1) (l.run acts).2.hook := by
  induction acts generalizing outcomes l with
  | nil =>
    rw [Lookout.run, List.append_nil]
    exact h
  | cons act acts ih =>
    have hmore := ih (h.step act)
    rw [List.append_assoc] at hmore
    exact hmore

end Delivered

namespace Lookout

variable (l : Lookout)

theorem step_of_unhooked {l : Lookout} (h : l.hook = none) (act : Act) :
    (l.step act).2.hook = none ∧ ∀ o ∈ (l.step act).1, o.offered? = none := by
  cases act with
  | rate | fail => exact ⟨h, by simp [step]⟩
  | check now =>
    refine ⟨?_, by simp [step, h]⟩
    change (l.check now).2.hook = none
    rw [l.check_hook, h]
    cases (l.check now).1 <;> rfl
  | receive | close => simp [step, h]

theorem run_of_unhooked {l : Lookout} (h : l.hook = none) (acts : List Act) :
    ∀ o ∈ (l.run acts).1, o.offered? = none := by
  induction acts generalizing l with
  | nil => simp [run]
  | cons act acts ih =>
    obtain ⟨hhook, hstep⟩ := step_of_unhooked h act
    intro o ho
    rcases List.mem_append.1 ho with ho | ho
    · exact hstep o ho
    · exact ih hhook o ho

theorem step_of_foundDeaf {act : Act} {o : Outcome} (ho : o ∈ (l.step act).1)
    (hdeaf : o.foundDeaf = true) : (l.step act).2.hook = none := by
  cases act with
  | rate | fail => cases ho
  | check now =>
    obtain rfl := List.mem_singleton.1 ho
    change (l.check now).2.hook = none
    rw [l.check_hook]
    cases hresult : (l.check now).1 with
    | none => simp [hresult] at hdeaf
    | some alert =>
      cases hhook : l.hook with
      | none => rfl
      | some hook =>
        have hlistening : hook.listening = false := by
          simpa [hresult, hhook] using hdeaf
        simp [Hook.offer_eq, hlistening]
  | receive | close =>
    obtain ⟨_, -, rfl⟩ := List.mem_map.1 ho
    cases hdeaf

theorem step_pairwise (act : Act) (R : Outcome → Outcome → Prop) : (l.step act).1.Pairwise R := by
  cases act with
  | rate | fail => exact List.Pairwise.nil
  | check => exact List.pairwise_singleton _ _
  | receive => cases h : l.hook.bind fun hook => hook.receive.1 <;> simp [step, h]
  | close => cases h : l.hook <;> simp [step, h]

theorem given_up (acts : List Act) :
    (l.run acts).1.Pairwise fun o p => o.foundDeaf = true → p.offered? = none := by
  induction acts generalizing l with
  | nil => exact List.Pairwise.nil
  | cons act acts ih =>
    refine List.pairwise_append.2 ⟨l.step_pairwise act _, ih _, ?_⟩
    intro o ho p hp hdeaf
    exact run_of_unhooked (l.step_of_foundDeaf ho hdeaf) acts p hp

theorem written_step (act : Act) :
    (l.step act).2.sink.written =
      l.sink.written ++ String.join (((l.step act).1.filterMap Outcome.written?).map line) := by
  cases act with
  | rate | fail => exact String.append_empty.symm
  | check now =>
    change (l.check now).2.sink.written = _
    rw [l.check_sink]
    cases hresult : (l.check now).1 with
    | none => simp [step, hresult]
    | some alert =>
      cases hfailing : l.sink.failing <;>
        simp [step, hresult, hfailing, Sink.writeLine, line, String.append_assoc]
  | receive | close => simp [step, Function.comp_def]

theorem written_run (acts : List Act) :
    (l.run acts).2.sink.written =
      l.sink.written ++ String.join (((l.run acts).1.filterMap Outcome.written?).map line) := by
  induction acts generalizing l with
  | nil => exact String.append_empty.symm
  | cons act acts ih =>
    rw [run, ih, written_step, String.append_assoc, ← String.join_append, ← List.map_append,
      ← List.filterMap_append]

theorem failing_check (now : Instant) : (l.check now).2.sink.failing = l.sink.failing := by
  rw [l.check_sink]
  cases (l.check now).1 with
  | none => rfl
  | some alert =>
    simp only [Option.elim_some, Sink.writeLine]
    split <;> rfl

theorem step_of_working {l : Lookout} (hworking : l.sink.failing = false) {act : Act}
    (hact : act ≠ .fail true) : (l.step act).2.sink.failing = false ∧
      (l.step act).1.filterMap Outcome.written? = emitted (l.step act).1 := by
  rw [emitted, l.results_step]
  cases act with
  | rate => exact ⟨hworking, rfl⟩
  | check now =>
    refine ⟨(l.failing_check now).trans hworking, ?_⟩
    simp [step, hworking, List.filterMap_cons]
  | receive | close => exact ⟨hworking, by simp [step, Function.comp_def]⟩
  | fail on =>
    cases on with
    | false => exact ⟨rfl, rfl⟩
    | true => exact absurd rfl hact

theorem written_eq_emitted {l : Lookout} (hworking : l.sink.failing = false) {acts : List Act}
    (hacts : ∀ act ∈ acts, act ≠ .fail true) :
    (l.run acts).1.filterMap Outcome.written? = emitted (l.run acts).1 := by
  induction acts generalizing l with
  | nil => rfl
  | cons act acts ih =>
    obtain ⟨hnext, hstep⟩ := step_of_working hworking (hacts act List.mem_cons_self)
    have hmore := ih hnext fun other hother => hacts other (List.mem_cons_of_mem act hother)
    rw [run, List.filterMap_append, emitted_append, hstep, hmore]

/-- Whatever befalls hook and sink, the checks answer as they do without, and the machine is the
same. The listener gets the alerts that found it there and a free place, and none once a check has
missed it. The sink has those that found it working. -/
theorem hook_and_sink_never_influence (ring : Rate.Ring) (threshold : Float)
    (capacity : Option Nat) (acts : List Act) :
    let run := (create ring threshold capacity).run acts
    (∀ capacity' acts', traffic acts' = traffic acts →
      let other := (create ring threshold capacity').run acts'
      (results run.1).map (Option.map Crossing.untimed) =
        (results other.1).map (Option.map Crossing.untimed) ∧
      run.2.machine = other.2.machine) ∧
    run.1.filterMap Outcome.admitted? =
      run.1.filterMap Outcome.taken? ++ run.1.flatMap Outcome.left ++
        run.2.hook.elim [] Hook.waiting ∧
    (run.1.Pairwise fun o p => o.foundDeaf = true → p.offered? = none) ∧
    run.2.sink.written = String.join ((run.1.filterMap Outcome.written?).map line) ∧
    ((∀ act ∈ acts, act ≠ .fail true) →
      run.2.sink.written =
        String.join ((emitted run.1).map fun alert => alert.text ++ "\n")) := by
  intro run
  have hwritten : run.2.sink.written = String.join ((run.1.filterMap Outcome.written?).map line) :=
    ((create ring threshold capacity).written_run acts).trans String.empty_append
  refine ⟨?_, ?_, given_up _ acts, hwritten, ?_⟩
  · intro capacity' acts' htraffic other
    have hrun := (create ring threshold capacity).run_eq_undisturbed acts
    have hother := (create ring threshold capacity').run_eq_undisturbed acts'
    rw [htraffic] at hother
    have hsame := hrun.trans hother.symm
    exact ⟨congrArg Prod.fst hsame, congrArg (fun after => after.2.2) hsame⟩
  · have hdelivered := (Delivered.create capacity).run (l := create ring threshold capacity) acts
    exact hdelivered.admitted_eq
  · intro hacts
    rw [hwritten, written_eq_emitted rfl hacts]
    rfl

theorem hook_and_sink_never_influence_disturbed :
    let t : Instant := ⟨1000, 0⟩
    let hits : List Act := List.replicate 3 (.rate (.record t t))
    let tick : Act := .rate .advance
    let acts : List Act :=
      hits ++ [tick, .check t, .fail true, tick, tick, tick, .check t, .fail false] ++ hits ++
        [tick, .receive, .close, .check t, tick, tick, tick, .check t]
    let calm : List Act :=
      hits ++ [tick, .check ⟨1, 0⟩, tick, tick, tick, .check ⟨2, 0⟩] ++ hits ++
        [tick, .check ⟨3, 0⟩, tick, tick, tick, .check ⟨4, 0⟩]
    ∃ ring, Rate.Ring.create? (.ofSeconds 2) (.ofSeconds 1) = some ring ∧
      let disturbed := (create ring 1.0 (some 1)).run acts
      let other := (create ring 1.0 none).run calm
      traffic calm = traffic acts ∧ (∀ act ∈ calm, act ≠ .fail true) ∧
      (results disturbed.1).map (Option.map Crossing.untimed) =
        (results other.1).map (Option.map Crossing.untimed) ∧
      ((emitted disturbed.1).map (·.recovered), (disturbed.1.filterMap Outcome.taken?).length) =
        ([false, true, false, true], 1) ∧
      other.2.sink.written =
        String.join ((emitted other.1).map fun alert => alert.text ++ "\n") := by
  intro t hits tick acts calm
  have hcount : (Rate.Ring.create? (.ofSeconds 2) (.ofSeconds 1)).all (fun ring =>
      let disturbed := (create ring 1.0 (some 1)).run acts
      ((emitted disturbed.1).map (·.recovered), (disturbed.1.filterMap Outcome.taken?).length) ==
        ([false, true, false, true], 1)) = true := by decide +kernel
  obtain ⟨ring, hr⟩ : ∃ ring, Rate.Ring.create? (.ofSeconds 2) (.ofSeconds 1) = some ring :=
    ⟨_, rfl⟩
  rw [hr, Option.all_some, beq_iff_eq] at hcount
  have htraffic : traffic calm = traffic acts := rfl
  have hcalm : ∀ act ∈ calm, act ≠ .fail true := by simp [calm, hits, tick]
  have hsame := (hook_and_sink_never_influence ring 1.0 (some 1) acts).1 none calm htraffic
  have hwritten := (hook_and_sink_never_influence ring 1.0 none calm).2.2.2.2 hcalm
  exact ⟨ring, hr, htraffic, hcalm, hsame.1, hcount, hwritten⟩

end Lookout

end TrafficMonitor.Alert
