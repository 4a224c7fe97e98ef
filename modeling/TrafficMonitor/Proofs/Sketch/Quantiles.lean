import Mathlib.Algebra.BigOperators.Group.List.Lemmas
import Mathlib.Algebra.Order.Floor.Div
import TrafficMonitor.Proofs.Decimal.Rounding
import TrafficMonitor.Proofs.Sketch.Tally

namespace TrafficMonitor.Sketch

open Decimal Text

namespace Histogram

namespace Quantile

theorem rank_le_iff {q : Quantile} {total n : Nat} (hn : 0 < n) :
    q.rank total ≤ n ↔
      Binary64.roundSignificant (q.significand * Binary64.roundSignificant total) ≤ 2 ^ q.places * n := by
  have hpos := Nat.two_pow_pos q.places
  rw [rank, ← Nat.add_sub_assoc hpos, ← Nat.ceilDiv_eq_add_pred_div, Nat.max_le,
    ceilDiv_le_iff_le_mul hpos]
  exact and_iff_left hn

theorem rank_le_total {q : Quantile} {total : Nat} (hq : 100 * q.significand ≤ 99 * 2 ^ q.places)
    (ht : 0 < total) : q.rank total ≤ total := by
  rw [rank_le_iff ht]
  have hproduct := Binary64.roundSignificant_le (q.significand * Binary64.roundSignificant total)
  have htotal := Nat.mul_le_mul_left q.significand (Binary64.roundSignificant_le total)
  have hshare := Nat.mul_le_mul_right total hq
  rw [Nat.mul_left_comm, Nat.mul_left_comm q.significand] at htotal
  rw [Nat.mul_assoc, Nat.mul_assoc] at hshare
  omega

theorem rank_le_rank {q q' : Quantile}
    (h : q.significand * 2 ^ q'.places ≤ q'.significand * 2 ^ q.places) (total : Nat) :
    q.rank total ≤ q'.rank total := by
  have hpos : 0 < q'.rank total := Nat.le_max_right _ _
  have hreached := (rank_le_iff hpos).1 (Nat.le_refl (q'.rank total))
  rw [rank_le_iff hpos]
  -- both products at the scale of both denominators
  apply Nat.le_of_mul_le_mul_right _ (Nat.two_pow_pos q'.places)
  calc Binary64.roundSignificant (q.significand * Binary64.roundSignificant total) * 2 ^ q'.places
    _ = Binary64.roundSignificant (q.significand * 2 ^ q'.places * Binary64.roundSignificant total) := by
      rw [← Binary64.roundSignificant_mul_two_pow, Nat.mul_right_comm]
    _ ≤ Binary64.roundSignificant (q'.significand * 2 ^ q.places * Binary64.roundSignificant total) :=
      Binary64.roundSignificant_mono (Nat.mul_le_mul_right _ h)
    _ = Binary64.roundSignificant (q'.significand * Binary64.roundSignificant total) * 2 ^ q.places := by
      rw [← Binary64.roundSignificant_mul_two_pow, Nat.mul_right_comm]
    _ ≤ 2 ^ q'.places * q'.rank total * 2 ^ q.places := Nat.mul_le_mul_right _ hreached
    _ = 2 ^ q.places * q'.rank total * 2 ^ q'.places := by ring

end Quantile

section SlotAt

variable {rank rank' seen slot slot' : Nat} {slots : List (Nat × Nat)}

theorem mem_of_slotAt? (h : slotAt? rank seen slots = some slot) : slot ∈ slots.map Prod.fst := by
  induction slots generalizing seen with
  | nil => cases h
  | cons p slots ih =>
    rw [slotAt?] at h
    split at h
    · exact List.mem_cons.2 (.inl (Option.some.inj h).symm)
    · exact List.mem_cons_of_mem _ (ih h)

theorem exists_slotAt? (hlow : seen < rank) (h : rank ≤ seen + (slots.map Prod.snd).sum) :
    ∃ slot, slotAt? rank seen slots = some slot := by
  induction slots generalizing seen with
  | nil => exact absurd h (Nat.not_le_of_lt hlow)
  | cons p slots ih =>
    rw [List.map_cons, List.sum_cons, ← Nat.add_assoc] at h
    rw [slotAt?]
    split
    · exact ⟨_, rfl⟩
    case isFalse hmore => exact ih (Nat.lt_of_not_le hmore) h

theorem slotAt?_mono (hslots : slots.Pairwise fun p q => p.1 < q.1) (hrank : rank ≤ rank')
    (h : slotAt? rank seen slots = some slot) (h' : slotAt? rank' seen slots = some slot') :
    slot ≤ slot' := by
  induction slots generalizing seen with
  | nil => cases h
  | cons p slots ih =>
    rw [List.pairwise_cons] at hslots
    rw [slotAt?] at h h'
    by_cases hfirst : rank ≤ seen + p.2
    · rw [if_pos hfirst] at h
      obtain rfl := Option.some.inj h
      split at h'
      · exact Nat.le_of_eq (Option.some.inj h')
      · obtain ⟨q, hq, rfl⟩ := List.mem_map.1 (mem_of_slotAt? h')
        exact Nat.le_of_lt (hslots.1 q hq)
    · rw [if_neg hfirst] at h
      rw [if_neg fun hle => hfirst (hrank.trans hle)] at h'
      exact ih hslots.2 h h'

end SlotAt

def answer (s : Scale) (q : Quantile) (slot : Nat) : Nat :=
  if q.significand = 0 then s.lowest (s.slotValue slot) else s.highest (s.slotValue slot)

theorem valueAt_of_slotAt? {h : Histogram} {q : Quantile} {slot : Nat}
    (hslot : slotAt? (q.rank h.total) 0 h.slots = some slot) :
    h.valueAt q = answer h.scale q slot := by
  rw [valueAt, hslot]
  rfl

theorem pairwise_slots (h : Histogram) : h.slots.Pairwise fun p q => p.1 < q.1 :=
  Std.TreeMap.ordered_keys_toList.imp Nat.compare_eq_lt.1

end Histogram

namespace Tally

open Histogram

variable {s : Scale} {h : Histogram} {values : List Nat}

theorem mem_slots_iff (ht : Tally s h values) {slot : Nat} :
    slot ∈ h.slots.map Prod.fst ↔ ∃ v ∈ values, s.slotOf (s.clamp v) = slot := by
  have hpos : 0 < s.tally values slot ↔ ∃ v ∈ values, s.slotOf (s.clamp v) = slot := by
    rw [Scale.tally, List.countP_pos_iff]
    simp only [decide_eq_true_eq]
  rw [← hpos, List.mem_map]
  constructor
  · rintro ⟨⟨slot, n⟩, hp, rfl⟩
    rw [slots, Std.TreeMap.mem_toList_iff_getElem?_eq_some, ht.getElem?_eq] at hp
    by_contra hz
    rw [if_pos (Nat.eq_zero_of_not_pos hz)] at hp
    cases hp
  · intro h
    refine ⟨(slot, s.tally values slot), ?_, rfl⟩
    rw [slots, Std.TreeMap.mem_toList_iff_getElem?_eq_some, ht.getElem?_eq, if_neg h.ne']

theorem sum_slots (ht : Tally s h values) : (h.slots.map Prod.snd).sum = values.length := by
  let entered := values.map fun v => s.slotOf (s.clamp v)
  have hcount (slot : Nat) : s.tally values slot = entered.count slot := by
    rw [List.count_eq_countP, List.countP_map, Scale.tally]
    rfl
  have hsnd : h.slots.map Prod.snd = (h.slots.map Prod.fst).map fun slot => entered.count slot := by
    rw [List.map_map]
    apply List.map_congr_left
    intro p hp
    have hentry := Std.TreeMap.mem_toList_iff_getElem?_eq_some.1 hp
    rw [Function.comp_apply, ← hcount, ← ht.getD_eq, Std.TreeMap.getD_eq_getD_getElem?, hentry]
    rfl
  have hkeys : (h.slots.map Prod.fst).Perm entered.dedup := by
    apply (List.perm_ext_iff_of_nodup (nodup_keys h.counts) entered.nodup_dedup).2
    intro slot
    exact ht.mem_slots_iff.trans (by rw [List.mem_dedup, List.mem_map])
  calc (h.slots.map Prod.snd).sum
    _ = (entered.dedup.map fun slot => entered.count slot).sum := by
      rw [hsnd]
      exact (hkeys.map _).sum_eq
    _ = values.length := (List.sum_map_count_dedup_eq_length entered).trans (List.length_map _)

theorem exists_slotAt? (ht : Tally s h values) {q : Quantile}
    (hq : 100 * q.significand ≤ 99 * 2 ^ q.places) (hne : values ≠ []) :
    ∃ slot, slotAt? (q.rank h.total) 0 h.slots = some slot := by
  have hpos : 0 < h.total := ht.total_eq ▸ List.length_pos_of_ne_nil hne
  apply Histogram.exists_slotAt?
  · exact Nat.le_max_right _ _
  · rw [Nat.zero_add, ht.sum_slots, ← ht.total_eq]
    exact Quantile.rank_le_total hq hpos

theorem exists_of_slotAt? (ht : Tally s h values) {rank slot : Nat}
    (hslot : slotAt? rank 0 h.slots = some slot) :
    ∃ v ∈ values, s.slotOf (s.clamp v) = slot ∧ s.slotValue slot = s.lowest (s.clamp v) := by
  obtain ⟨v, hv, rfl⟩ := ht.mem_slots_iff.1 (mem_of_slotAt? hslot)
  exact ⟨v, hv, rfl, s.slotValue_slotOf _⟩

theorem highest_le_max (ht : Tally s h values) {v : Nat} (hv : v ∈ values) :
    s.highest (s.clamp v) ≤ h.max := (ht.max_le_iff _).1 (Nat.le_refl _) v hv

theorem min_le_least (ht : Tally s h values) {v : Nat} (hv : v ∈ values) :
    h.min ≤ s.least (s.clamp v) := by
  rw [Histogram.min]
  split
  case isTrue => exact Nat.zero_le _
  case isFalse hpositive =>
    -- no value is zero, so the least positive one is the least
    have hne : s.clamp v ≠ 0 := by
      intro hz
      apply hpositive
      right
      have hslot : s.slotOf (s.clamp v) = 0 := by rw [hz, s.slotOf_zero]
      obtain ⟨p, hp, hzero⟩ := List.mem_map.1 (ht.mem_slots_iff.2 ⟨v, hv, hslot⟩)
      rw [Std.TreeMap.contains_eq_isSome_getElem?, ← hzero,
        Std.TreeMap.mem_toList_iff_getElem?_eq_some.1 hp]
      rfl
    cases hp : h.minPositive with
    | none => exact Nat.zero_le _
    | some p => exact (ht.le_min_iff p).1 (by simp [hp]) v hv hne

theorem min_le_max (ht : Tally s h values) (hs : s.limit ≤ Numeral.maxWord) : h.min ≤ h.max := by
  cases hvalues : values with
  | nil =>
    have hnil : h.total = 0 := by rw [ht.total_eq, hvalues, List.length_nil]
    rw [Histogram.min, if_pos (.inl hnil)]
    exact Nat.zero_le _
  | cons v more =>
    have hv : v ∈ values := hvalues ▸ List.mem_cons_self
    calc h.min
      _ ≤ s.least (s.clamp v) := ht.min_le_least hv
      _ ≤ s.clamp v := s.least_le _
      _ ≤ s.highest (s.clamp v) := Scale.le_highest (Scale.clamp_le_maxWord hs v)
      _ ≤ h.max := ht.highest_le_max hv

theorem valueAt_le_max (ht : Tally s h values) (hs : s.limit ≤ Numeral.maxWord) (q : Quantile) :
    h.valueAt q ≤ h.max := by
  cases hslot : slotAt? (q.rank h.total) 0 h.slots with
  | none =>
    rw [valueAt, hslot]
    exact Nat.zero_le _
  | some slot =>
    obtain ⟨v, hv, -, hvalue⟩ := ht.exists_of_slotAt? hslot
    have hword := Scale.clamp_le_maxWord hs v
    refine Nat.le_trans ?_ (ht.highest_le_max hv)
    rw [valueAt_of_slotAt? hslot, ht.scale_eq, answer, hvalue]
    split
    · rw [Scale.lowest_lowest]
      exact Scale.lowest_le_highest hword
    · exact Scale.highest_mono (s.lowest_le _) hword

theorem min_le_valueAt (ht : Tally s h values) (hs : s.bound ≤ Numeral.maxWord) {q : Quantile}
    (hq : 100 * q.significand ≤ 99 * 2 ^ q.places) (hne : values ≠ []) : h.min ≤ h.valueAt q := by
  obtain ⟨slot, hslot⟩ := ht.exists_slotAt? hq hne
  obtain ⟨v, hv, -, hvalue⟩ := ht.exists_of_slotAt? hslot
  have hword : s.clamp v < Numeral.maxWord := (s.clamp_lt v).trans_le hs
  have hlow := ht.min_le_least hv
  rw [Scale.least_of_ne hword.ne] at hlow
  refine hlow.trans ?_
  rw [valueAt_of_slotAt? hslot, ht.scale_eq, answer, hvalue]
  split
  · rw [Scale.lowest_lowest]
  · exact Scale.le_highest ((s.lowest_le _).trans hword.le)

theorem valueAt_mono (ht : Tally s h values) (hs : s.limit ≤ Numeral.maxWord) {q q' : Quantile}
    (hle : q.significand * 2 ^ q'.places ≤ q'.significand * 2 ^ q.places)
    (hq' : 100 * q'.significand ≤ 99 * 2 ^ q'.places) (hne : values ≠ []) :
    h.valueAt q ≤ h.valueAt q' := by
  obtain ⟨slot', hslot'⟩ := ht.exists_slotAt? hq' hne
  cases hslot : slotAt? (q.rank h.total) 0 h.slots with
  | none =>
    rw [valueAt, hslot]
    exact Nat.zero_le _
  | some slot =>
    have horder := slotAt?_mono h.pairwise_slots (Quantile.rank_le_rank hle _) hslot hslot'
    obtain ⟨v, hv, hin, hvalue⟩ := ht.exists_of_slotAt? hslot
    obtain ⟨v', hv', hin', hvalue'⟩ := ht.exists_of_slotAt? hslot'
    have hlowest : s.lowest (s.clamp v) ≤ s.lowest (s.clamp v') :=
      Scale.lowest_le_of_slotOf_le (by rwa [hin, hin'])
    have hword : s.lowest (s.clamp v') ≤ Numeral.maxWord :=
      (s.lowest_le _).trans (Scale.clamp_le_maxWord hs v')
    rw [valueAt_of_slotAt? hslot, valueAt_of_slotAt? hslot', ht.scale_eq, answer, answer, hvalue, hvalue']
    by_cases hz : q'.significand = 0
    · have hz' : q.significand = 0 := by
        rw [hz, Nat.zero_mul, Nat.le_zero, Nat.mul_eq_zero] at hle
        exact hle.resolve_right (Nat.two_pow_pos _).ne'
      rw [if_pos hz, if_pos hz']
      exact Scale.lowest_mono hlowest
    · rw [if_neg hz]
      split
      · rw [Scale.lowest_lowest]
        exact hlowest.trans (Scale.le_highest hword)
      · exact Scale.highest_mono hlowest hword

section Distribution

variable (ht : Tally s h values) (hs : s.bound ≤ Numeral.maxWord)

include ht hs

theorem distribution_ordered (hne : values ≠ []) :
    let d := Distribution.ofHistogram h
    d.min ≤ d.median ∧ d.median ≤ d.p99 ∧ d.p99 ≤ d.max := by
  have hword := s.limit_lt_bound.le.trans hs
  have htotal : h.total ≠ 0 := by
    rw [ht.total_eq]
    exact (List.length_pos_of_ne_nil hne).ne'
  rw [Distribution.ofHistogram, if_neg htotal]
  exact ⟨ht.min_le_valueAt hs (by decide) hne, ht.valueAt_mono hword (by decide) (by decide) hne,
    ht.valueAt_le_max hword _⟩

theorem distribution_encloses {v : Nat} (hv : v ∈ values) (hle : v ≤ s.limit) :
    let d := Distribution.ofHistogram h
    d.min ≤ v ∧ v ≤ d.max := by
  have hin : v < s.bound := hle.trans_lt s.limit_lt_bound
  have hmin := ht.min_le_least hv
  have hmax := ht.highest_le_max hv
  have htotal : h.total ≠ 0 := by
    rw [ht.total_eq]
    exact (List.length_pos_of_mem hv).ne'
  rw [Scale.clamp_of_lt_bound hin] at hmin hmax
  rw [Distribution.ofHistogram, if_neg htotal]
  exact ⟨hmin.trans (s.least_le v), (Scale.le_highest (hin.le.trans hs)).trans hmax⟩

end Distribution

theorem distribution_nil (ht : Tally s h []) : Distribution.ofHistogram h = .zero := if_pos ht.total_eq

end Tally

end TrafficMonitor.Sketch
