import Mathlib.Algebra.BigOperators.Group.Finset.Basic
import Mathlib.Algebra.BigOperators.Group.Finset.Piecewise
import Mathlib.Algebra.Order.BigOperators.Group.Finset
import Mathlib.Order.Interval.Finset.Nat
import TrafficMonitor.Proofs.Rate.RingView

/-! The ring agrees with an unbounded history that keeps the hits of every quantum. -/

namespace TrafficMonitor.Rate

open Time Text Decimal.Binary64

inductive Event where
  | record (hit now : Instant)
  | advance

namespace Event

def isKept (window : Duration) : Event → Bool
  | .record hit now => (now.minus? window).any fun start => !hit.before start
  | .advance => false

def isRecord : Event → Bool
  | .record _ _ => true
  | .advance => false

def InRange (window : Duration) : Event → Prop
  | .record _ now => (now.minus? window).isSome
  | .advance => True

end Event

namespace Ring

def apply (acc : List Bool × Ring) : Event → Except Fault (List Bool × Ring)
  | .record hit now =>
    match acc.2.record hit now with
    | .ok (counted, r) => .ok (acc.1 ++ [counted], r)
    | .error fault => .error fault
  | .advance => .ok (acc.1, acc.2.advance)

def run (r : Ring) (es : List Event) : Except Fault (List Bool × Ring) := es.foldlM apply ([], r)

theorem run_concat (r : Ring) (es : List Event) (e : Event) :
    r.run (es ++ [e]) = r.run es >>= (apply · e) := by
  simp only [run, List.foldlM_append, List.foldlM_cons, List.foldlM_nil, bind_pure]

theorem apply_eq_map (counted : List Bool) (r : Ring) (e : Event) :
    apply (counted, r) e = (apply ([], r) e).map fun after => (counted ++ after.1, after.2) := by
  cases e with
  | record hit now => cases h : r.record hit now <;> simp [apply, h, Except.map]
  | advance => simp [apply, Except.map]

theorem run_append (r : Ring) (es more : List Event) :
    r.run (es ++ more) = r.run es >>= fun a => (a.2.run more).map fun b => (a.1 ++ b.1, b.2) := by
  induction more using List.reverseRecOn with
  | nil =>
    rw [List.append_nil]
    cases r.run es with
    | error fault => rfl
    | ok a =>
      have hnil : a.2.run [] = .ok ([], a.2) := rfl
      simp [hnil, bind, Except.bind, Except.map]
  | append_singleton more e ih =>
    rw [← List.append_assoc, run_concat, ih]
    cases r.run es with
    | error fault => rfl
    | ok a =>
      simp only [bind, Except.bind, run_concat]
      cases a.2.run more with
      | error fault => rfl
      | ok b =>
        simp only [Except.map, apply_eq_map (a.1 ++ b.1) b.2 e, apply_eq_map b.1 b.2 e]
        cases apply ([], b.2) e <;> simp

end Ring

def advances (es : List Event) : Nat := es.countP fun e => !e.isRecord

def records (es : List Event) : Nat := es.countP Event.isRecord

def decisions (window : Duration) (es : List Event) : List Bool :=
  (es.filter Event.isRecord).map (Event.isKept window)

theorem decisions_append (window : Duration) (es more : List Event) :
    decisions window (es ++ more) = decisions window es ++ decisions window more := by
  rw [decisions, List.filter_append, List.map_append, decisions, decisions]

namespace Ring

def after (r : Ring) (e : Event) : Ring :=
  match apply ([], r) e with
  | .ok (_, s) => s
  | .error _ => r

theorem after_record (r : Ring) (hit now : Instant) :
    r.after (.record hit now) =
      if (Event.record hit now).isKept r.window then
        r.setCurrent (min (r.current.getD 0 + 1) Numeral.maxWord)
      else r := by
  cases hstart : now.minus? r.window with
  | none => simp [after, apply, record, Event.isKept, hstart]
  | some start =>
    cases hb : hit.before start <;> simp [after, apply, record, Event.isKept, hstart, hb]

theorem apply_of_inRange {r : Ring} {e : Event} (he : e.InRange r.window) (counted : List Bool) :
    apply (counted, r) e = .ok (counted ++ decisions r.window [e], r.after e) := by
  cases e with
  | advance => simp [apply, after, decisions, Event.isRecord]
  | record hit now =>
    obtain ⟨start, hstart⟩ := Option.isSome_iff_exists.1 he
    have hdecided : decisions r.window [.record hit now] = [!hit.before start] := by
      simp [decisions, List.filter_cons, Event.isRecord, Event.isKept, hstart]
    cases hb : hit.before start <;> simp [apply, after, record, hdecided, hstart, hb]

end Ring

/-- The kept hits of the quantum between the advance number `i` and the next one. -/
def hits (window : Duration) : List Event → Nat → Nat
  | [], _ => 0
  | .advance :: _, 0 => 0
  | .advance :: es, i + 1 => hits window es i
  | e@(.record _ _) :: es, i => hits window es i + if i = 0 ∧ e.isKept window then 1 else 0

section History

variable {window : Duration} {es : List Event}

@[simp] theorem advances_concat_advance : advances (es ++ [.advance]) = advances es + 1 := by
  simp [advances, Event.isRecord]

@[simp] theorem advances_concat_record (hit now : Instant) :
    advances (es ++ [.record hit now]) = advances es := by
  simp [advances, Event.isRecord]

@[simp] theorem records_concat_advance : records (es ++ [.advance]) = records es := by
  simp [records, Event.isRecord]

@[simp] theorem records_concat_record (hit now : Instant) :
    records (es ++ [.record hit now]) = records es + 1 := by
  simp [records, Event.isRecord]

theorem hits_concat_advance (window : Duration) (es : List Event) (i : Nat) :
    hits window (es ++ [.advance]) i = hits window es i := by
  induction es generalizing i with
  | nil => cases i <;> rfl
  | cons e es ih =>
    cases e with
    | record hit now => simp only [List.cons_append, hits, ih]
    | advance =>
      cases i with
      | zero => rfl
      | succ i => exact ih i

theorem hits_concat_record (window : Duration) (es : List Event) (hit now : Instant) (i : Nat) :
    hits window (es ++ [.record hit now]) i = hits window es i +
      if i = advances es ∧ (Event.record hit now).isKept window then 1 else 0 := by
  induction es generalizing i with
  | nil => rfl
  | cons e es ih =>
    cases e with
    | record h n =>
      have ha : advances (.record h n :: es) = advances es := by simp [advances, Event.isRecord]
      simp only [List.cons_append, hits, ih, ha]
      omega
    | advance =>
      have ha : advances (.advance :: es) = advances es + 1 := by simp [advances, Event.isRecord]
      cases i with
      | zero => simp [List.cons_append, hits, ha]
      | succ i =>
        simp only [List.cons_append, hits, ih, ha, Nat.add_right_cancel_iff]

theorem hits_of_lt (window : Duration) (es : List Event) {i : Nat} (hi : advances es < i) : hits window es i = 0 := by
  induction es using List.reverseRecOn with
  | nil => rfl
  | append_singleton es e ih =>
    cases e with
    | record hit now =>
      rw [advances_concat_record] at hi
      rw [hits_concat_record, ih hi, if_neg (by omega)]
    | advance =>
      rw [advances_concat_advance] at hi
      rw [hits_concat_advance, ih (by omega)]

theorem sum_hits_le (window : Duration) (es : List Event) (s : Finset Nat) :
    ∑ i ∈ s, hits window es i ≤ records es := by
  induction es using List.reverseRecOn with
  | nil => simp [hits]
  | append_singleton es e ih =>
    cases e with
    | record hit now =>
      have hone : (∑ i ∈ s, if i = advances es ∧ (Event.record hit now).isKept window then 1 else 0)
          ≤ 1 := by
        cases hk : (Event.record hit now).isKept window with
        | false => simp
        | true => simp only [and_true, Finset.sum_ite_eq']; split <;> omega
      simp only [hits_concat_record, Finset.sum_add_distrib, records_concat_record]
      omega
    | advance => simpa only [hits_concat_advance, records_concat_advance] using ih

theorem hits_le_records (window : Duration) (es : List Event) (i : Nat) :
    hits window es i ≤ records es := by
  simpa using sum_hits_le window es {i}

end History

def observed (c : Nat → Nat) (i : Nat) : Option Nat := if i = 0 ∧ c i = 0 then none else some (c i)

theorem observed_getD (c : Nat → Nat) (i : Nat) : (observed c i).getD 0 = c i := by
  rw [observed]
  split
  case isTrue h => exact h.2.symm
  case isFalse => rfl

/-- The ring holds the last quanta of a history of `t` completed ones. -/
structure Mirrors (r : Ring) (t : Nat) (c : Nat → Nat) : Prop where
  ago_eq : ∀ k < r.slots.size, r.ago k = if k ≤ t then observed c (t - k) else none

namespace Mirrors

variable {r : Ring} {t : Nat} {c : Nat → Nat}

theorem create {window quantum : Duration} (h : Ring.create? window quantum = some r) :
    Mirrors r 0 fun _ => 0 := by
  obtain ⟨n, _, _, _, hslots, _⟩ := Ring.create?_eq_some h
  refine ⟨fun k hk => ?_⟩
  have hp := Ring.position_lt hk
  simp only [hslots, Array.size_replicate] at hp
  simp [Ring.ago, hslots, hp, observed]

theorem current_getD (h : Mirrors r t c) : r.current.getD 0 = c t := by
  rw [Ring.current_eq, h.ago_eq 0 r.size_pos, if_pos (Nat.zero_le t), Nat.sub_zero, observed_getD]

theorem set (h : Mirrors r t c) {n : Nat} (hn : n ≠ 0) :
    Mirrors (r.setCurrent n) t fun i => if i = t then n else c i := by
  refine ⟨fun k hk => ?_⟩
  rw [Ring.slots_size_setCurrent] at hk
  cases k with
  | zero => simp [Ring.ago_setCurrent_zero, observed, hn]
  | succ k =>
    rw [Ring.ago_setCurrent_of_pos _ (Nat.succ_pos k) hk, h.ago_eq _ hk]
    split
    case isTrue hkt =>
      have hne : t - (k + 1) ≠ t := by omega
      simp only [observed, if_neg hne]
    case isFalse => rfl

theorem advance (h : Mirrors r t c) (hz : c (t + 1) = 0) : Mirrors r.advance (t + 1) c := by
  refine ⟨fun k hk => ?_⟩
  rw [Ring.slots_size_advance] at hk
  cases k with
  | zero => simp [Ring.ago_advance_zero, observed, hz]
  | succ k =>
    rw [Ring.ago_advance_succ hk, h.ago_eq k (by omega)]
    simp only [Nat.add_le_add_iff_right, Nat.add_sub_add_right]

theorem latest (h : Mirrors r t c) (hs : 1 < r.slots.size) :
    r.latest = if t = 0 then 0 else c (t - 1) := by
  rw [Ring.latest_eq hs, h.ago_eq 1 hs]
  cases t with
  | zero => rfl
  | succ t => rw [if_pos (Nat.le_add_left 1 t), observed_getD, if_neg (Nat.succ_ne_zero t)]

theorem counts_eq (h : Mirrors r t c) {l : Nat} (hs : r.slots.size = l + 1) :
    r.completed.filterMap id = (List.range' (t - l) (min t l)).filterMap (observed c) := by
  have hl : l = (l - min t l) + min t l := by omega
  have hunseen : (List.range (l - min t l)).filterMap (fun j => r.ago (l - j)) = [] := by
    apply List.filterMap_eq_nil_iff.mpr
    intro j hj
    rw [List.mem_range] at hj
    rw [h.ago_eq _ (by omega), if_neg (by omega)]
  have hseen : ∀ i ∈ List.range (min t l),
      r.ago (l - (l - min t l + i)) = observed c (t - l + i) := by
    intro i hi
    rw [List.mem_range] at hi
    rw [h.ago_eq _ (by omega), if_pos (by omega)]
    congr 1
    omega
  calc r.completed.filterMap id
    _ = (List.range l).filterMap fun j => r.ago (l - j) := by
      rw [Ring.completed_eq, hs, Nat.add_sub_cancel, List.filterMap_map]
      rfl
    _ = (List.range (min t l)).filterMap fun i => r.ago (l - (l - min t l + i)) := by
      conv_lhs => rw [hl, List.range_add, List.filterMap_append, ← hl, hunseen, List.filterMap_map]
      rfl
    _ = (List.range (min t l)).filterMap fun i => observed c (t - l + i) :=
      List.filterMap_congr hseen
    _ = (List.range' (t - l) (min t l)).filterMap (observed c) := by
      rw [List.range'_eq_map_range, List.filterMap_map]
      rfl

end Mirrors

def counted (l t : Nat) (c : Nat → Nat) : Finset Nat :=
  (Finset.Ico (t - l) t).filter fun i => ¬(i = 0 ∧ c 0 = 0)

theorem filterMap_observed (c : Nat → Nat) (is : List Nat) :
    is.filterMap (observed c) = (is.filter fun i => ¬(i = 0 ∧ c 0 = 0)).map c := by
  induction is with
  | nil => rfl
  | cons i is ih =>
    by_cases hi : i = 0 ∧ c 0 = 0
    · obtain ⟨rfl, hz⟩ := hi
      simp [observed, hz, ih]
    · have ho : observed c i = some (c i) := by
        apply if_neg
        rintro ⟨rfl, hz⟩
        exact hi ⟨rfl, hz⟩
      rw [List.filterMap_cons_some ho, List.filter_cons, if_pos (decide_eq_true hi), List.map_cons, ih]

theorem counted_eq_toFinset (l t : Nat) (c : Nat → Nat) :
    counted l t c =
      ((List.range' (t - l) (min t l)).filter fun i => ¬(i = 0 ∧ c 0 = 0)).toFinset := by
  ext i
  simp only [counted, Finset.mem_filter, Finset.mem_Ico, List.mem_toFinset, List.mem_filter,
    List.mem_range'_1, decide_eq_true_eq]
  omega

theorem counted_nodup (l t : Nat) (c : Nat → Nat) :
    ((List.range' (t - l) (min t l)).filter fun i => ¬(i = 0 ∧ c 0 = 0)).Nodup :=
  List.Nodup.filter _ List.nodup_range'

namespace Mirrors

variable {r : Ring} {t l : Nat} {c : Nat → Nat}

theorem sum_counts (h : Mirrors r t c) (hs : r.slots.size = l + 1) :
    (r.completed.filterMap id).foldr (· + ·) 0 = ∑ i ∈ counted l t c, c i := by
  rw [h.counts_eq hs, ← List.sum_eq_foldr, filterMap_observed, counted_eq_toFinset,
    List.sum_toFinset _ (counted_nodup l t c)]

theorem length_counts (h : Mirrors r t c) (hs : r.slots.size = l + 1) :
    (r.completed.filterMap id).length = (counted l t c).card := by
  rw [h.counts_eq hs, filterMap_observed, counted_eq_toFinset,
    List.toFinset_card_of_nodup (counted_nodup l t c), List.length_map]

theorem average_eq (h : Mirrors r t c) (hs : r.slots.size = l + 1)
    (hb : ∑ i ∈ counted l t c, c i ≤ Numeral.maxWord) :
    r.average =
      if counted l t c = ∅ then none
      else some (ofCount (∑ i ∈ counted l t c, c i) /
        (ofCount (counted l t c).card * r.quantum.seconds)) := by
  have he : (r.completed.filterMap id).isEmpty = true ↔ counted l t c = ∅ := by
    rw [List.isEmpty_iff, ← List.length_eq_zero_iff, h.length_counts hs, Finset.card_eq_zero]
  rw [Ring.average]
  simp only [he, h.sum_counts hs, h.length_counts hs, Nat.min_eq_left hb]

end Mirrors

structure Tracks (window quantum : Duration) (es : List Event) (r : Ring) : Prop where
  window_eq : r.window = window
  quantum_eq : r.quantum = quantum
  size_eq : r.slots.size = window.nanoseconds / quantum.nanoseconds + 1
  mirrors : Mirrors r (advances es) fun i => min (hits window es i) Numeral.maxWord

namespace Tracks

variable {window quantum : Duration} {es : List Event} {r start : Ring}

theorem create (h : Ring.create? window quantum = some r) : Tracks window quantum [] r := by
  obtain ⟨n, hn, hw, hq, hslots, _⟩ := Ring.create?_eq_some h
  obtain ⟨_, _, _, rfl⟩ := slotCount?_eq_some_iff.mp hn
  exact ⟨hw, hq, by rw [hslots, Array.size_replicate], Mirrors.create h⟩

theorem step (h : Tracks window quantum es r) (e : Event) :
    Tracks window quantum (es ++ [e]) (r.after e) := by
  cases e with
  | advance =>
    refine ⟨h.window_eq, h.quantum_eq, r.slots_size_advance.trans h.size_eq, ?_⟩
    have hz := hits_of_lt window es (Nat.lt_succ_self (advances es))
    simp only [advances_concat_advance, hits_concat_advance]
    exact h.mirrors.advance (by rw [hz, Nat.zero_min])
  | record hit now =>
    rw [Ring.after_record, h.window_eq]
    cases hk : (Event.record hit now).isKept window with
    | false =>
      refine ⟨h.window_eq, h.quantum_eq, h.size_eq, ?_⟩
      simpa [hits_concat_record, hk] using h.mirrors
    | true =>
      refine ⟨h.window_eq, h.quantum_eq, (r.slots_size_setCurrent _).trans h.size_eq, ?_⟩
      have hword : 0 < Numeral.maxWord := by decide
      have hset := h.mirrors.set (n := min (r.current.getD 0 + 1) Numeral.maxWord) (by omega)
      rw [h.mirrors.current_getD] at hset ⊢
      rw [advances_concat_record]
      -- A counter one above its bound is cut to it, as the number of hits is.
      have hcount : (fun i => min (hits window (es ++ [.record hit now]) i) Numeral.maxWord) =
          fun i => if i = advances es then
            min (min (hits window es (advances es)) Numeral.maxWord + 1) Numeral.maxWord
          else min (hits window es i) Numeral.maxWord := by
        funext i
        rw [hits_concat_record, hk]
        by_cases hi : i = advances es
        · subst hi
          simp only [and_self, if_true]
          omega
        · simp [hi]
      rw [hcount]
      exact hset

theorem foldl_after (hr : Ring.create? window quantum = some start) (es : List Event) :
    Tracks window quantum es (es.foldl Ring.after start) := by
  induction es using List.reverseRecOn with
  | nil => exact .create hr
  | append_singleton es e ih =>
    rw [List.foldl_append]
    exact ih.step e

theorem mirrors_hits (h : Tracks window quantum es r) (hn : records es < 2 ^ 64) :
    Mirrors r (advances es) (hits window es) := by
  have hroom (i : Nat) : hits window es i ≤ Numeral.maxWord := by
    have hle := hits_le_records window es i
    simp only [Numeral.maxWord]
    omega
  have hm := h.mirrors
  simpa only [Nat.min_eq_left (hroom _)] using hm

theorem average_eq (h : Tracks window quantum es r) (hn : records es < 2 ^ 64) :
    let l := window.nanoseconds / quantum.nanoseconds
    let p := counted l (advances es) (hits window es)
    r.average =
      if p = ∅ then none
      else some (ofCount (∑ i ∈ p, hits window es i) / (ofCount p.card * quantum.seconds)) := by
  intro l p
  have hsum : ∑ i ∈ p, hits window es i ≤ Numeral.maxWord := by
    have hle : ∑ i ∈ p, hits window es i ≤ records es := sum_hits_le window es p
    simp only [Numeral.maxWord]
    omega
  rw [← h.quantum_eq]
  exact (h.mirrors_hits hn).average_eq h.size_eq hsum

end Tracks

theorem run_eq_after {window quantum : Duration} {r : Ring}
    (hr : Ring.create? window quantum = some r) {es : List Event}
    (hrange : ∀ e ∈ es, e.InRange window) :
    r.run es = .ok (decisions window es, es.foldl Ring.after r) := by
  induction es using List.reverseRecOn with
  | nil => rfl
  | append_singleton es e ih =>
    obtain ⟨hrange, hlast⟩ := List.forall_mem_append.1 hrange
    have hw := (Tracks.foldl_after hr es).window_eq
    have he : e.InRange (es.foldl Ring.after r).window := hw ▸ hlast e (List.mem_singleton.2 rfl)
    have hstep := Ring.apply_of_inRange he (decisions window es)
    rw [hw, ← decisions_append] at hstep
    rw [Ring.run_concat, ih hrange, List.foldl_append]
    exact hstep

theorem counted_congr {l t : Nat} {c d : Nat → Nat} (h : ∀ i, t - l ≤ i → i < t → d i = c i) :
    counted l t d = counted l t c := by
  apply Finset.filter_congr
  intro i hi
  rw [Finset.mem_Ico] at hi
  have hd := h i hi.1 hi.2
  constructor
  · rintro hz ⟨rfl, hc⟩
    exact hz ⟨rfl, hd.trans hc⟩
  · rintro hz ⟨rfl, hc⟩
    exact hz ⟨rfl, hd.symm.trans hc⟩

/-- The ring's answers are those of the unbounded history of its events. Nothing outside the last
completed quanta of the window has a part in the average. -/
theorem run_refines_history {window quantum : Duration} {r : Ring}
    (hr : Ring.create? window quantum = some r) (es : List Event)
    (hrange : ∀ e ∈ es, e.InRange window) (hn : records es < 2 ^ 64) :
    let l := window.nanoseconds / quantum.nanoseconds
    let t := advances es
    let c := hits window es
    let p := counted l t c
    ∃ s, r.run es = .ok (decisions window es, s) ∧
      s.latest = (if t = 0 then 0 else c (t - 1)) ∧
      (s.average = none ↔ p = ∅) ∧
      (p.Nonempty →
        s.average = some (ofCount (∑ i ∈ p, c i) / (ofCount p.card * quantum.seconds))) ∧
      ∀ es', (∀ e ∈ es', e.InRange window) → records es' < 2 ^ 64 → advances es' = t →
        (∀ i, t - l ≤ i → i < t → hits window es' i = c i) →
        ∃ s', r.run es' = .ok (decisions window es', s') ∧ s'.average = s.average := by
  intro l t c p
  have hf := Tracks.foldl_after hr es
  generalize hs : es.foldl Ring.after r = s at hf
  have hone : 1 < s.slots.size := by
    obtain ⟨n, hslots, _⟩ := Ring.create?_eq_some hr
    obtain ⟨hq, hle, _⟩ := slotCount?_eq_some_iff.mp hslots
    have hl := Nat.div_pos hle hq
    rw [hf.size_eq]
    omega
  have havg := hf.average_eq hn
  refine ⟨s, hs ▸ run_eq_after hr hrange, (hf.mirrors_hits hn).latest hone, ?_, ?_, ?_⟩
  · rw [havg]
    split
    case isTrue hp => exact iff_of_true rfl hp
    case isFalse hp => exact iff_of_false (Option.some_ne_none _) hp
  · intro hp
    rw [havg, if_neg hp.ne_empty]
  · intro es' hrange' hn' ht hc
    have hf' := Tracks.foldl_after hr es'
    refine ⟨_, run_eq_after hr hrange', ?_⟩
    have hp : counted l t (hits window es') = p := counted_congr hc
    have hsum : ∑ i ∈ p, hits window es' i = ∑ i ∈ p, c i := by
      apply Finset.sum_congr rfl
      intro i hi
      have hm := (Finset.mem_filter.mp hi).1
      rw [Finset.mem_Ico] at hm
      exact hc i hm.1 hm.2
    have havg' := hf'.average_eq hn'
    simp only [ht] at havg'
    rw [havg', havg, hp, hsum]

theorem run_refines_history_wrapped :
    let t : Instant := ⟨1000, 0⟩
    let es : List Event :=
      [.record t t, .record ⟨997, 0⟩ t, .advance, .record t t, .record t t, .advance,
        .record t t, .record t t, .record t t, .advance]
    ∃ r s, Ring.create? (.ofSeconds 2) (.ofSeconds 1) = some r ∧
      (∀ e ∈ es, e.InRange (.ofSeconds 2)) ∧ records es < 2 ^ 64 ∧
      r.run es = .ok ([true, false, true, true, true, true, true], s) ∧ s.latest = 3 ∧
      s.average = some (ofCount 5 / (ofCount 2 * (Duration.ofSeconds 1).seconds)) := by
  intro t es
  obtain ⟨r, hr⟩ : ∃ r, Ring.create? (.ofSeconds 2) (.ofSeconds 1) = some r := ⟨_, rfl⟩
  have hstart : (t.minus? (.ofSeconds 2)).isSome := by decide
  have hrange : ∀ e ∈ es, e.InRange (.ofSeconds 2) := by simp [es, Event.InRange, hstart]
  have hn : records es < 2 ^ 64 := by decide
  obtain ⟨s, hs, hl, _, ha, _⟩ := run_refines_history hr es hrange hn
  have hp : counted 2 (advances es) (hits (.ofSeconds 2) es) = {1, 2} := by decide
  have hd : decisions (.ofSeconds 2) es = [true, false, true, true, true, true, true] := by decide
  have hc : hits (.ofSeconds 2) es 2 = 3 := by decide
  have hlen : (Duration.ofSeconds 2).nanoseconds / (Duration.ofSeconds 1).nanoseconds = 2 := by decide
  have hsum : ∑ i ∈ {1, 2}, hits (.ofSeconds 2) es i = 5 := by decide
  rw [hd] at hs
  rw [hlen, hp, hsum] at ha
  exact ⟨r, s, hr, hrange, hn, hs, hl.trans hc, ha (by simp)⟩

end TrafficMonitor.Rate
