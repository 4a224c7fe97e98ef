import TrafficMonitor.Alert.Publisher
import TrafficMonitor.Proofs.Rate.Saturation
import TrafficMonitor.Proofs.Time.Deadlines
import TrafficMonitor.Rate.Ticker

/-!
The ticker of a ring and the watch over it on one clock. Each does its work when the clock comes to or
passes a multiple of its period, once however many multiples went by, and never after it was cancelled.
-/

namespace TrafficMonitor.Cadence

open Time Rate Alert

inductive Act where
  | hit (stamp now : Instant)
  | advance (elapsed : Duration) (average : Option Float) (present : Instant)
  | cancel

def Act.elapsed : Act → Nat
  | .hit _ _ | .cancel => 0
  | .advance elapsed _ _ => elapsed.nanoseconds

def Act.isCancel : Act → Bool
  | .hit _ _ | .advance _ _ _ => false
  | .cancel => true

def Act.hit? : Act → Option Event
  | .hit stamp now => some (.record stamp now)
  | .advance _ _ _ | .cancel => none

def clock (acts : List Act) : Nat := (acts.map Act.elapsed).sum

def isCancelled (acts : List Act) : Bool := acts.any Act.isCancel

def isDue (period : Nat) (before : List Act) (elapsed : Duration) : Bool :=
  !isCancelled before && clock before / period < (clock before + elapsed.nanoseconds) / period

def collect {β : Type} (gives : List Act → Act → List β) (before : List Act) : List Act → List β
  | [] => []
  | act :: acts => gives before act ++ collect gives (before ++ [act]) acts

def ringEvents (quantum : Nat) : List Act → List Event :=
  collect (fun before act =>
    match act with
    | .hit stamp now => [.record stamp now]
    | .advance elapsed _ _ => if isDue quantum before elapsed then [.advance] else []
    | .cancel => []) []

def checks (interval : Nat) : List Act → List (Option Float × Instant) :=
  collect (fun before act =>
    match act with
    | .advance elapsed average present =>
      if isDue interval before elapsed then [(average, present)] else []
    | .hit _ _ | .cancel => []) []

def afterTicker (t : Ticker) : Act → Ticker
  | .hit stamp now => { t with ring := t.ring.after (.record stamp now) }
  | .advance elapsed _ _ => t.advance elapsed
  | .cancel => t.cancel

def afterWatch (w : Watch) : Act → Watch
  | .hit _ _ => w
  | .advance elapsed average present => w.advance elapsed average present
  | .cancel => w.cancel

def ticked (ring : Ring) (acts : List Act) : Ticker := acts.foldl afterTicker (.start ring)

def watched (publisher : Publisher) (interval : Duration) (acts : List Act) : Watch :=
  acts.foldl afterWatch (.start publisher interval)

section Acts

variable (acts : List Act) (act : Act)

theorem clock_concat : clock (acts ++ [act]) = clock acts + act.elapsed := by simp [clock]

theorem isCancelled_append (more : List Act) :
    isCancelled (acts ++ more) = (isCancelled acts || isCancelled more) := List.any_append

theorem isCancelled_concat : isCancelled (acts ++ [act]) = (isCancelled acts || act.isCancel) := by
  simp [isCancelled]

theorem collect_concat {β : Type} (gives : List Act → Act → List β) (before : List Act) :
    collect gives before (acts ++ [act]) = collect gives before acts ++ gives (before ++ acts) act := by
  induction acts generalizing before with
  | nil => simp [collect]
  | cons first acts ih => simp [collect, ih]

end Acts

/-- Where timer, clock and flag of a task stand after some acts. The deadline is kept up while the
task runs, and stays a multiple of the period. -/
structure OnTime (q : Nat) (acts : List Act) (timer : Periodic) (now : Nat) (running : Bool) : Prop where
  now_eq : now = clock acts
  running_eq : running = !isCancelled acts
  dvd_next : q ∣ timer.next
  awaits : running = true → timer.Awaits q now

namespace OnTime

variable {q now : Nat} {acts : List Act} {timer : Periodic} {running : Bool}

theorem start (period : Duration) : OnTime period.nanoseconds [] (.start 0 period) 0 true where
  now_eq := rfl
  running_eq := rfl
  dvd_next := (Periodic.awaits_start period).dvd_next
  awaits _ := Periodic.awaits_start period

theorem isDue_eq (h : OnTime q acts timer now running) (hq : 0 < q) (elapsed : Duration) :
    (running && timer.isDue (now + elapsed.nanoseconds)) = isDue q acts elapsed := by
  rw [isDue, ← h.running_eq, ← h.now_eq]
  cases hr : running with
  | false => rfl
  | true => rw [Bool.true_and, Bool.true_and, (h.awaits hr).isDue_eq hq]

theorem advance (h : OnTime q acts timer now running) {elapsed : Duration} {average : Option Float}
    {present : Instant} :
    OnTime q (acts ++ [.advance elapsed average present])
      (if isDue q acts elapsed then timer.restart (now + elapsed.nanoseconds) else timer)
      (now + elapsed.nanoseconds) running := by
  have hawaits (hr : running = true) :
      (if isDue q acts elapsed then timer.restart (now + elapsed.nanoseconds) else timer).Awaits q
        (now + elapsed.nanoseconds) := by
    have hbefore := h.awaits hr
    have hle : now / q ≤ (now + elapsed.nanoseconds) / q := Nat.div_le_div_right (Nat.le_add_right _ _)
    have hdue : isDue q acts elapsed = decide (now / q < (now + elapsed.nanoseconds) / q) := by
      rw [isDue, ← h.running_eq, ← h.now_eq, hr, Bool.true_and]
    rw [hdue]
    split
    case isTrue hlt => exact hbefore.restart (of_decide_eq_true hlt)
    case isFalse hlt =>
      exact hbefore.of_div_eq (Nat.le_antisymm hle (Nat.le_of_not_lt fun hl => hlt (decide_eq_true hl)))
  refine ⟨?_, ?_, ?_, hawaits⟩
  · rw [clock_concat, ← h.now_eq]
    rfl
  · rw [isCancelled_concat, h.running_eq]
    simp [Act.isCancel]
  · cases hr : running with
    | true => exact (hawaits hr).dvd_next
    | false =>
      have hdue : isDue q acts elapsed = false := by rw [isDue, ← h.running_eq, hr, Bool.false_and]
      rw [hdue]
      exact h.dvd_next

theorem hit (h : OnTime q acts timer now running) {stamp present : Instant} :
    OnTime q (acts ++ [.hit stamp present]) timer now running where
  now_eq := by
    rw [clock_concat]
    exact h.now_eq
  running_eq := by
    rw [isCancelled_concat, h.running_eq]
    simp [Act.isCancel]
  dvd_next := h.dvd_next
  awaits := h.awaits

theorem cancel (h : OnTime q acts timer now running) :
    OnTime q (acts ++ [.cancel]) timer now false where
  now_eq := by
    rw [clock_concat]
    exact h.now_eq
  running_eq := by simp [isCancelled_concat, Act.isCancel]
  dvd_next := h.dvd_next
  awaits hr := by cases hr

end OnTime

section Ticker

variable {ring : Ring}

theorem ticked_concat (acts : List Act) (act : Act) :
    ticked ring (acts ++ [act]) = afterTicker (ticked ring acts) act := by
  simp [ticked]

theorem ticker_advance {q : Nat} {acts : List Act} {t : Ticker}
    (h : OnTime q acts t.timer t.now t.running) (hq : 0 < q) (elapsed : Duration) :
    t.advance elapsed =
      { ring := if isDue q acts elapsed then t.ring.advance else t.ring
        timer := if isDue q acts elapsed then t.timer.restart (t.now + elapsed.nanoseconds) else t.timer
        now := t.now + elapsed.nanoseconds
        running := t.running } := by
  rw [← h.isDue_eq hq]
  cases hr : t.running with
  | false => simp [Ticker.advance, Ticker.poll, hr]
  | true =>
    cases hdue : t.timer.isDue (t.now + elapsed.nanoseconds) with
    | false => simp [Ticker.advance, Ticker.poll, Periodic.fire?, hr, hdue]
    | true => simp [Ticker.advance, Ticker.poll, Periodic.fire?, hr, hdue]

theorem onTime_ticked (hq : 0 < ring.quantum.nanoseconds) (acts : List Act) :
    OnTime ring.quantum.nanoseconds acts (ticked ring acts).timer (ticked ring acts).now
      (ticked ring acts).running := by
  induction acts using List.reverseRecOn with
  | nil => exact .start ring.quantum
  | append_singleton acts act ih =>
    rw [ticked_concat]
    cases act with
    | hit stamp now => exact ih.hit
    | advance elapsed average present =>
      rw [afterTicker, ticker_advance ih hq]
      exact ih.advance
    | cancel => exact ih.cancel

theorem ring_ticked_advance (hq : 0 < ring.quantum.nanoseconds) (acts : List Act) (elapsed : Duration)
    (average : Option Float) (present : Instant) :
    (ticked ring (acts ++ [.advance elapsed average present])).ring =
      if isDue ring.quantum.nanoseconds acts elapsed then (ticked ring acts).ring.advance
      else (ticked ring acts).ring := by
  rw [ticked_concat, afterTicker, ticker_advance (onTime_ticked hq acts) hq]

theorem ring_ticked (hq : 0 < ring.quantum.nanoseconds) (acts : List Act) :
    (ticked ring acts).ring = (ringEvents ring.quantum.nanoseconds acts).foldl Ring.after ring := by
  induction acts using List.reverseRecOn with
  | nil => rfl
  | append_singleton acts act ih =>
    rw [ringEvents, collect_concat, List.foldl_append, ← ringEvents, ← ih, List.nil_append]
    cases act with
    | hit stamp now =>
      rw [ticked_concat]
      rfl
    | advance elapsed average present =>
      rw [ring_ticked_advance hq]
      simp only
      split <;> rfl
    | cancel =>
      rw [ticked_concat]
      rfl

end Ticker

section Watch

variable {publisher : Publisher} {interval : Duration}

theorem watched_concat (acts : List Act) (act : Act) :
    watched publisher interval (acts ++ [act]) = afterWatch (watched publisher interval acts) act := by
  simp [watched]

theorem watch_advance {q : Nat} {acts : List Act} {w : Watch}
    (h : OnTime q acts w.timer w.now w.running) (hq : 0 < q) (elapsed : Duration)
    (average : Option Float) (present : Instant) :
    w.advance elapsed average present =
      { publisher :=
          if isDue q acts elapsed then (w.publisher.check average present).2 else w.publisher
        timer := if isDue q acts elapsed then w.timer.restart (w.now + elapsed.nanoseconds) else w.timer
        now := w.now + elapsed.nanoseconds
        running := w.running } := by
  rw [← h.isDue_eq hq]
  cases hr : w.running with
  | false => simp [Watch.advance, Watch.poll, hr]
  | true =>
    cases hdue : w.timer.isDue (w.now + elapsed.nanoseconds) with
    | false => simp [Watch.advance, Watch.poll, Periodic.fire?, hr, hdue]
    | true => simp [Watch.advance, Watch.poll, Periodic.fire?, hr, hdue]

theorem onTime_watched (hp : 0 < interval.nanoseconds) (acts : List Act) :
    OnTime interval.nanoseconds acts (watched publisher interval acts).timer
      (watched publisher interval acts).now (watched publisher interval acts).running := by
  induction acts using List.reverseRecOn with
  | nil => exact .start interval
  | append_singleton acts act ih =>
    rw [watched_concat]
    cases act with
    | hit stamp now => exact ih.hit
    | advance elapsed average present =>
      rw [afterWatch, watch_advance ih hp]
      exact ih.advance
    | cancel => exact ih.cancel

theorem publisher_watched_advance (hp : 0 < interval.nanoseconds) (acts : List Act)
    (elapsed : Duration) (average : Option Float) (present : Instant) :
    (watched publisher interval (acts ++ [.advance elapsed average present])).publisher =
      if isDue interval.nanoseconds acts elapsed then
        ((watched publisher interval acts).publisher.check average present).2
      else (watched publisher interval acts).publisher := by
  rw [watched_concat, afterWatch, watch_advance (onTime_watched hp acts) hp]

theorem publisher_watched (hp : 0 < interval.nanoseconds) (acts : List Act) :
    (watched publisher interval acts).publisher =
      (checks interval.nanoseconds acts).foldl (fun p read => (p.check read.1 read.2).2) publisher := by
  induction acts using List.reverseRecOn with
  | nil => rfl
  | append_singleton acts act ih =>
    rw [checks, collect_concat, List.foldl_append, ← checks, ← ih, List.nil_append]
    cases act with
    | hit stamp now =>
      rw [watched_concat]
      rfl
    | advance elapsed average present =>
      rw [publisher_watched_advance hp]
      simp only
      split <;> rfl
    | cancel =>
      rw [watched_concat]
      rfl

end Watch

section Counts

theorem isDue_of_isDue_mul {q k : Nat} {before : List Act} {elapsed : Duration}
    (h : isDue (q * k) before elapsed) : isDue q before elapsed := by
  rw [isDue, Bool.and_eq_true, decide_eq_true_eq] at h ⊢
  refine h.imp_right fun hlt => ?_
  rw [← Nat.div_div_eq_div_mul, ← Nat.div_div_eq_div_mul] at hlt
  exact Nat.lt_of_div_lt_div hlt

theorem length_checks_le (q k : Nat) (acts : List Act) :
    (checks (q * k) acts).length ≤ advances (ringEvents q acts) := by
  induction acts using List.reverseRecOn with
  | nil => exact Nat.le_refl 0
  | append_singleton acts act ih =>
    rw [checks, collect_concat, ← checks, ringEvents, collect_concat, ← ringEvents, List.nil_append,
      List.length_append]
    cases act with
    | hit stamp now => simpa using ih
    | advance elapsed average present =>
      by_cases hcheck : isDue (q * k) acts elapsed
      · simpa [hcheck, isDue_of_isDue_mul hcheck] using ih
      · by_cases hadvance : isDue q acts elapsed
        · simpa [hcheck, hadvance] using Nat.le_succ_of_le ih
        · simpa [hcheck, hadvance] using ih
    | cancel => simpa using ih

end Counts

section Cancelled

variable {ring : Ring} {publisher : Publisher} {interval : Duration} {acts : List Act}

theorem isDue_append_of_isCancelled (h : isCancelled acts) (q : Nat) (more : List Act)
    (elapsed : Duration) : isDue q (acts ++ more) elapsed = false := by
  rw [isDue, isCancelled_append, h]
  rfl

theorem ring_ticked_of_isCancelled (hq : 0 < ring.quantum.nanoseconds) (h : isCancelled acts)
    (more : List Act) :
    (ticked ring (acts ++ more)).ring =
      (more.filterMap Act.hit?).foldl Ring.after (ticked ring acts).ring := by
  induction more using List.reverseRecOn with
  | nil => rw [List.append_nil]; rfl
  | append_singleton more act ih =>
    rw [← List.append_assoc, List.filterMap_append, List.foldl_append, ← ih]
    cases act with
    | hit stamp now =>
      rw [ticked_concat]
      rfl
    | advance elapsed average present =>
      rw [ring_ticked_advance hq, isDue_append_of_isCancelled h]
      rfl
    | cancel =>
      rw [ticked_concat]
      rfl

theorem publisher_watched_of_isCancelled (hp : 0 < interval.nanoseconds) (h : isCancelled acts)
    (more : List Act) :
    (watched publisher interval (acts ++ more)).publisher =
      (watched publisher interval acts).publisher := by
  induction more using List.reverseRecOn with
  | nil => rw [List.append_nil]
  | append_singleton more act ih =>
    rw [← List.append_assoc, ← ih]
    cases act with
    | hit stamp now =>
      rw [watched_concat]
      rfl
    | advance elapsed average present =>
      rw [publisher_watched_advance hp, isDue_append_of_isCancelled h]
      rfl
    | cancel =>
      rw [watched_concat]
      rfl

end Cancelled

/-- However far the clock jumps, an advance moves the ring on once if it comes to or passes a multiple
of the quantum, and else not; so with the checks and their interval. The deadlines are the next
multiples, and nothing is done once the tasks are cancelled. With an interval of whole quanta there
are never more checks than advances of the ring. -/
theorem missed_deadlines_are_skipped {ring : Ring} {publisher : Publisher} {interval : Duration}
    (hq : 0 < ring.quantum.nanoseconds) (hp : 0 < interval.nanoseconds) (acts : List Act) :
    let q := ring.quantum.nanoseconds
    let p := interval.nanoseconds
    let ticker := ticked ring
    let watch := watched publisher interval
    (∀ elapsed average present,
      let next := acts ++ [.advance elapsed average present]
      let passes := fun period => isCancelled acts = false ∧
        clock acts / period < (clock acts + elapsed.nanoseconds) / period
      (passes q → (ticker next).ring = (ticker acts).ring.advance) ∧
      (¬passes q → (ticker next).ring = (ticker acts).ring) ∧
      (passes p → (watch next).publisher = ((watch acts).publisher.check average present).2) ∧
      (¬passes p → (watch next).publisher = (watch acts).publisher)) ∧
    (ticker acts).ring = (ringEvents q acts).foldl Ring.after ring ∧
    (watch acts).publisher = (checks p acts).foldl (fun p read => (p.check read.1 read.2).2) publisher ∧
    (q ∣ (ticker acts).timer.next ∧ p ∣ (watch acts).timer.next) ∧
    (isCancelled acts = false →
      IsLeast {m | q ∣ m ∧ clock acts < m} (ticker acts).timer.next ∧
      IsLeast {m | p ∣ m ∧ clock acts < m} (watch acts).timer.next) ∧
    (isCancelled acts → ∀ more,
      ((ticker (acts ++ more)).running = false ∧ (watch (acts ++ more)).running = false) ∧
      (ticker (acts ++ more)).ring =
        (more.filterMap Act.hit?).foldl Ring.after (ticker acts).ring ∧
      (watch (acts ++ more)).publisher = (watch acts).publisher) ∧
    (∀ k, p = q * k → (checks p acts).length ≤ advances (ringEvents q acts)) := by
  intro q p ticker watch
  have hticker := onTime_ticked hq acts
  have hwatch : OnTime p acts (watch acts).timer (watch acts).now (watch acts).running :=
    onTime_watched hp acts
  have hpasses (period : Nat) (elapsed : Duration) :
      (isCancelled acts = false ∧
        clock acts / period < (clock acts + elapsed.nanoseconds) / period) ↔
      isDue period acts elapsed = true := by
    rw [isDue, Bool.and_eq_true, Bool.not_eq_true', decide_eq_true_iff]
  refine ⟨fun elapsed average present => ?_, ring_ticked hq acts, publisher_watched hp acts,
    ⟨hticker.dvd_next, hwatch.dvd_next⟩, fun hrun => ?_, fun hcancelled more => ?_, ?_⟩
  · intro next passes
    have hring := ring_ticked_advance hq acts elapsed average present
    have hpublisher : (watch next).publisher = _ :=
      publisher_watched_advance hp acts elapsed average present
    simp only [passes, hpasses]
    refine ⟨fun h => ?_, fun h => ?_, fun h => ?_, fun h => ?_⟩
    · exact hring.trans (if_pos h)
    · exact hring.trans (if_neg h)
    · exact hpublisher.trans (if_pos h)
    · exact hpublisher.trans (if_neg h)
  · have htick : (ticker acts).running = true := by rw [hticker.running_eq, hrun]; rfl
    have hcheck : (watch acts).running = true := by rw [hwatch.running_eq, hrun]; rfl
    constructor
    · exact hticker.now_eq ▸ (hticker.awaits htick).isLeast_next hq
    · exact hwatch.now_eq ▸ (hwatch.awaits hcheck).isLeast_next hp
  · have hmore : isCancelled (acts ++ more) = true := by rw [isCancelled_append, hcancelled]; rfl
    refine ⟨⟨?_, ?_⟩, ring_ticked_of_isCancelled hq hcancelled more,
      publisher_watched_of_isCancelled hp hcancelled more⟩
    · rw [(onTime_ticked hq (acts ++ more)).running_eq, hmore]
      rfl
    · rw [(onTime_watched hp (acts ++ more)).running_eq, hmore]
      rfl
  · intro k hk
    rw [hk]
    exact length_checks_le q k acts

theorem missed_deadlines_are_skipped_stalled :
    let ring : Ring := ⟨⟨20⟩, ⟨10⟩, #[none, none, none], 0, by decide⟩
    let publisher := Publisher.create 1.0 none
    let acts : List Act := [.advance ⟨10⟩ none ⟨0, 0⟩, .advance ⟨35⟩ none ⟨0, 0⟩]
    (ticked ring acts).ring = ring.advance.advance ∧
      IsLeast {m | 10 ∣ m ∧ 45 < m} (ticked ring acts).timer.next ∧
      (ticked ring (acts ++ [.cancel] ++ [.advance ⟨100⟩ none ⟨0, 0⟩])).ring =
        (ticked ring (acts ++ [.cancel])).ring ∧
      (checks 20 acts).length ≤ advances (ringEvents 10 acts) ∧
      (watched publisher ⟨20⟩ acts).publisher = (publisher.check none ⟨0, 0⟩).2 := by
  intro ring publisher acts
  obtain ⟨_, hring, hpublisher, _, hleast, _, hle⟩ := @missed_deadlines_are_skipped ring publisher ⟨20⟩
    (by decide) (by decide) acts
  obtain ⟨_, _, _, _, _, hcancelled, _⟩ := @missed_deadlines_are_skipped ring publisher ⟨20⟩
    (by decide) (by decide) (acts ++ [.cancel])
  have hevents : ringEvents 10 acts = [.advance, .advance] := rfl
  change (ticked ring acts).ring = (ringEvents 10 acts).foldl Ring.after ring at hring
  rw [hevents] at hring
  exact ⟨hring, (hleast rfl).1, (hcancelled rfl [.advance ⟨100⟩ none ⟨0, 0⟩]).2.1, hle 2 rfl, hpublisher⟩

end TrafficMonitor.Cadence
