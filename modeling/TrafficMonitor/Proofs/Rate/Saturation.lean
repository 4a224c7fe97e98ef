import TrafficMonitor.Proofs.Decimal.Magnitude
import TrafficMonitor.Proofs.Rate.History

namespace TrafficMonitor.Rate

open Time Text Decimal.Binary64

namespace Ring

theorem create?_bounds {window quantum : Duration} {r : Ring}
    (h : create? window quantum = some r) :
    0 < quantum.nanoseconds ∧ 0 < window.nanoseconds / quantum.nanoseconds ∧
      window.nanoseconds / quantum.nanoseconds ≤ maxQuanta ∧ quantum.wholeSeconds < 2 ^ 63 := by
  obtain ⟨n, hn, -⟩ := create?_eq_some h
  obtain ⟨hq, hle, hmax, rfl⟩ := slotCount?_eq_some_iff.1 hn
  have hlong : window.nanoseconds ≤ longestWindow.nanoseconds := by
    by_contra hlong
    simp [create?, hn, Nat.lt_of_not_le hlong] at h
  refine ⟨hq, Nat.div_pos hle hq, hmax, ?_⟩
  rw [Duration.wholeSeconds, Nat.div_lt_iff_lt_mul (by decide)]
  calc quantum.nanoseconds
    _ ≤ longestWindow.nanoseconds := Nat.le_trans hle hlong
    _ < 2 ^ 63 * Duration.nanosPerSecond := by decide

end Ring

theorem counted_nonempty_iff {l t : Nat} {c : Nat → Nat} (hl : 0 < l) :
    (counted l t c).Nonempty ↔ 0 < t ∧ (t = 1 → c 0 ≠ 0) := by
  constructor
  · rintro ⟨i, hi⟩
    rw [counted, Finset.mem_filter, Finset.mem_Ico] at hi
    refine ⟨by omega, ?_⟩
    rintro rfl hz
    exact hi.2 ⟨by omega, hz⟩
  · rintro ⟨ht, hfirst⟩
    refine ⟨t - 1, ?_⟩
    rw [counted, Finset.mem_filter, Finset.mem_Ico]
    refine ⟨by omega, ?_⟩
    rintro ⟨hone, hz⟩
    exact hfirst (by omega) hz

theorem hits_append_of_unkept {window : Duration} (es : List Event) {more : List Event}
    (h : ∀ e ∈ more, e.isKept window = false) (i : Nat) :
    hits window (es ++ more) i = hits window es i := by
  induction more using List.reverseRecOn with
  | nil => rw [List.append_nil]
  | append_singleton more e ih =>
    have ih := ih fun d hd => h d (List.mem_append_left _ hd)
    rw [← List.append_assoc]
    cases e with
    | record hit now =>
      have hlost := h (.record hit now) (by simp)
      rw [hits_concat_record, hlost, ih]
      simp
    | advance => rw [hits_concat_advance, ih]

namespace Mirrors

variable {r : Ring} {t l : Nat} {c : Nat → Nat}

theorem average_eq_none_iff (h : Mirrors r t c) (hs : r.slots.size = l + 1) :
    r.average = none ↔ counted l t c = ∅ := by
  rw [← Finset.card_eq_zero, ← h.length_counts hs, List.length_eq_zero_iff, ← List.isEmpty_iff,
    Ring.average]
  simp

end Mirrors

namespace Tracks

variable {window quantum : Duration} {es : List Event} {r start : Ring}

theorem average_ne_none_iff (hr : Ring.create? window quantum = some start)
    (h : Tracks window quantum es r) :
    r.average ≠ none ↔ 0 < advances es ∧ (advances es = 1 → hits window es 0 ≠ 0) := by
  have hl := (Ring.create?_bounds hr).2.1
  have hword : 0 < Numeral.maxWord := by decide
  rw [Ne, h.mirrors.average_eq_none_iff h.size_eq, ← Ne, ← Finset.nonempty_iff_ne_empty,
    counted_nonempty_iff hl]
  omega

theorem average_ne_none_step (hr : Ring.create? window quantum = some start)
    (h : Tracks window quantum es r) (hsome : r.average ≠ none) (e : Event) :
    (r.after e).average ≠ none := by
  obtain ⟨hpos, hfirst⟩ := (average_ne_none_iff hr h).1 hsome
  apply (average_ne_none_iff hr (h.step e)).2
  cases e with
  | advance =>
    rw [advances_concat_advance]
    omega
  | record hit now =>
    rw [advances_concat_record, hits_concat_record]
    omega

theorem average_eq_zero (hr : Ring.create? window quantum = some start)
    (h : Tracks window quantum es r) (hsome : r.average ≠ none)
    (hquiet : ∀ i, advances es - window.nanoseconds / quantum.nanoseconds ≤ i → i < advances es →
      hits window es i = 0) : r.average = some 0.0 := by
  obtain ⟨hq, hl, hmax, hseconds⟩ := Ring.create?_bounds hr
  generalize hp : counted (window.nanoseconds / quantum.nanoseconds) (advances es)
    (fun i => min (hits window es i) Numeral.maxWord) = p
  have hne : p ≠ ∅ := by
    rw [← hp, Ne, ← h.mirrors.average_eq_none_iff h.size_eq]
    exact hsome
  have hmem {i : Nat} (hi : i ∈ p) := Finset.mem_Ico.1 (Finset.mem_filter.1 (hp ▸ hi)).1
  have hsum : ∑ i ∈ p, min (hits window es i) Numeral.maxWord = 0 := by
    apply Finset.sum_eq_zero
    intro i hi
    rw [hquiet i (hmem hi).1 (hmem hi).2, Nat.zero_min]
  have hcard : p.card ≤ window.nanoseconds / quantum.nanoseconds := by
    have hsub : p ⊆ Finset.Ico (advances es - window.nanoseconds / quantum.nanoseconds)
        (advances es) := fun i hi => Finset.mem_Ico.2 (hmem hi)
    have hle := Finset.card_le_card hsub
    rw [Nat.card_Ico] at hle
    omega
  have haverage := h.mirrors.average_eq h.size_eq (by rw [hp, hsum]; exact Nat.zero_le _)
  rw [hp, if_neg hne, hsum, h.quantum_eq] at haverage
  have hcard' : p.card < 2 ^ 64 := by
    have : maxQuanta = 2 ^ 20 := rfl
    omega
  rw [haverage, zero_rate (Finset.card_ne_zero.2 (Finset.nonempty_iff_ne_empty.2 hne)) hcard' hq
    (by omega)]

theorem latest_le (h : Tracks window quantum es r) (hs : 1 < r.slots.size) :
    r.latest ≤ Numeral.maxWord := by
  rw [h.mirrors.latest hs]
  split
  case isTrue => exact Nat.zero_le _
  case isFalse => exact Nat.min_le_right _ _

theorem average_of_one_quantum (h : Tracks window quantum es r)
    (hone : window.nanoseconds / quantum.nanoseconds = 1) {average : Float}
    (hsome : r.average = some average) :
    average = ofCount r.latest / (ofCount 1 * quantum.seconds) := by
  have hs : r.slots.size = 2 := by rw [h.size_eq, hone]
  have hcompleted : r.completed = [r.ago 1] := by
    rw [r.completed_eq, hs]
    rfl
  have hle := h.latest_le (by omega)
  have hlatest := Ring.latest_eq (r := r) (by omega)
  rw [Ring.average, hcompleted] at hsome
  cases hago : r.ago 1 with
  | none => simp [hago] at hsome
  | some n =>
    rw [hago, Option.getD_some] at hlatest
    rw [hlatest] at hle ⊢
    simpa [hago, Nat.min_eq_left hle, h.quantum_eq] using hsome.symm

end Tracks

end TrafficMonitor.Rate
