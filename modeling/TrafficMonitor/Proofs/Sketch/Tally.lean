import Mathlib.Data.List.Induction
import TrafficMonitor.Proofs.Sketch.Slots
import TrafficMonitor.Sketch.RollingHistogram

namespace TrafficMonitor.Sketch

open Text

namespace Histogram

def addCounts (t : Std.TreeMap Nat Nat) (l : List (Nat × Nat)) : Std.TreeMap Nat Nat :=
  l.foldl (fun t p => t.insert p.1 (t.getD p.1 0 + p.2)) t

theorem getElem?_addCounts_of_notMem {t : Std.TreeMap Nat Nat} {l : List (Nat × Nat)} {slot : Nat}
    (h : slot ∉ l.map Prod.fst) : (addCounts t l)[slot]? = t[slot]? := by
  induction l generalizing t with
  | nil => rfl
  | cons p l ih =>
    rw [List.map_cons, List.mem_cons, not_or] at h
    rw [addCounts, List.foldl_cons]
    refine (ih h.2).trans ?_
    rw [Std.TreeMap.getElem?_insert, if_neg (by simpa using Ne.symm h.1)]

theorem getElem?_addCounts_of_mem {t : Std.TreeMap Nat Nat} {l : List (Nat × Nat)} {slot n : Nat}
    (hl : (l.map Prod.fst).Nodup) (h : (slot, n) ∈ l) :
    (addCounts t l)[slot]? = some (t.getD slot 0 + n) := by
  induction l generalizing t with
  | nil => cases h
  | cons p l ih =>
    rw [List.map_cons, List.nodup_cons] at hl
    rw [addCounts, List.foldl_cons]
    rcases List.mem_cons.1 h with rfl | hm
    · refine (getElem?_addCounts_of_notMem hl.1).trans ?_
      simp
    · have hne : p.1 ≠ slot := fun he => hl.1 (he ▸ List.mem_map_of_mem hm)
      refine (ih hl.2 hm).trans ?_
      rw [Std.TreeMap.getD_insert, if_neg (by simpa using hne)]

theorem nodup_keys (t : Std.TreeMap Nat Nat) : (t.toList.map Prod.fst).Nodup := by
  rw [List.nodup_iff_pairwise_ne, List.pairwise_map]
  exact Std.TreeMap.distinct_keys_toList.imp fun h he => h (by simpa using he)

theorem max_eq (h : Histogram) : h.max = h.scale.highest h.largest := by
  rw [max]
  split
  case isTrue hz => rw [hz, Scale.highest_zero]
  case isFalse => rfl

end Histogram

def Scale.tally (s : Scale) (values : List Nat) (slot : Nat) : Nat :=
  values.countP fun v => s.slotOf (s.clamp v) = slot

theorem Scale.tally_append (s : Scale) (values more : List Nat) (slot : Nat) :
    s.tally (values ++ more) slot = s.tally values slot + s.tally more slot := List.countP_append

theorem Scale.tally_singleton (s : Scale) (v slot : Nat) :
    s.tally [v] slot = if s.slotOf (s.clamp v) = slot then 1 else 0 := by
  simp [tally, List.countP_singleton]

def Scale.takes (s : Scale) (values : List Nat) : Bool :=
  values.all fun v => s.highest (s.clamp v) ≤ s.reach

theorem Scale.takes_of_bound {s : Scale} (hs : s.bound ≤ Numeral.maxWord) (values : List Nat) :
    s.takes values = true := by
  have hreach : s.reach = s.bound - 1 := congrArg (· - 1) (Nat.min_eq_left hs)
  rw [takes, List.all_eq_true, hreach]
  intro v _
  exact decide_eq_true (Nat.le_pred_of_lt (highest_lt_bound (s.clamp_lt v)))

/-- A histogram holds these values, as far as its queries can tell. -/
structure Tally (s : Scale) (h : Histogram) (values : List Nat) : Prop where
  scale_eq : h.scale = s
  total_eq : h.total = values.length
  getElem?_eq : ∀ slot, h.counts[slot]? =
    if s.tally values slot = 0 then none else some (s.tally values slot)
  largest_le : h.largest ≤ Numeral.maxWord
  max_le_iff : ∀ m, h.max ≤ m ↔ ∀ v ∈ values, s.highest (s.clamp v) ≤ m
  le_min_iff : ∀ m, (∀ p ∈ h.minPositive, m ≤ p) ↔
    ∀ v ∈ values, s.clamp v ≠ 0 → m ≤ s.least (s.clamp v)

namespace Tally

variable {s : Scale} {h h' other : Histogram} {values more : List Nat}

theorem getD_eq (ht : Tally s h values) (slot : Nat) :
    h.counts.getD slot 0 = s.tally values slot := by
  rw [Std.TreeMap.getD_eq_getD_getElem?, ht.getElem?_eq]
  split
  case isTrue hz => exact hz.symm
  case isFalse => rfl

theorem perm (ht : Tally s h values) (hp : values.Perm more) : Tally s h more := by
  have htally : s.tally more = s.tally values := funext fun slot => hp.symm.countP_eq _
  refine ⟨ht.scale_eq, ht.total_eq.trans hp.length_eq, ?_, ht.largest_le, ?_, ?_⟩
  · simpa only [htally] using ht.getElem?_eq
  · simpa only [hp.mem_iff] using ht.max_le_iff
  · simpa only [hp.mem_iff] using ht.le_min_iff

theorem empty (s : Scale) : Tally s (.empty s) [] := by
  refine ⟨rfl, rfl, fun slot => ?_, Nat.zero_le _, fun m => ?_, fun m => ?_⟩
  · simp [Histogram.empty, Scale.tally]
  · simp [Histogram.empty, Histogram.max]
  · simp [Histogram.empty, Histogram.minPositive]

theorem record (ht : Tally s h values) (hs : s.limit ≤ Numeral.maxWord) (v : Nat) :
    Tally s (h.record v) (values ++ [v]) := by
  have hv := Scale.clamp_le_maxWord hs v
  refine ⟨ht.scale_eq, ?_, fun slot => ?_, ?_, fun m => ?_, fun m => ?_⟩
  · simp [Histogram.record, ht.total_eq]
  · simp only [Histogram.record, ht.scale_eq, Std.TreeMap.getElem?_insert, ht.getD_eq, ht.getElem?_eq,
      s.tally_append, s.tally_singleton, Std.LawfulEqCmp.compare_eq_iff_eq]
    by_cases hslot : s.slotOf (s.clamp v) = slot <;> simp [hslot]
  · simp only [Histogram.record, ht.scale_eq]
    exact Nat.max_le.2 ⟨ht.largest_le, hv⟩
  · have hmax : (h.record v).max = s.highest (max h.largest (s.clamp v)) := by
      rw [Histogram.max_eq, Histogram.record, ht.scale_eq]
    rw [hmax, Scale.highest_max_le_iff ht.largest_le hv, ← ht.scale_eq, ← h.max_eq, ht.max_le_iff]
    simp [ht.scale_eq, or_imp, forall_and]
  · have hmin : (h.record v).minPositive = if s.clamp v = 0 then h.minPositive
        else some (s.least (Histogram.lesser h.smallest (s.clamp v))) := by
      simp only [Histogram.minPositive, Histogram.record, ht.scale_eq]
      split <;> rfl
    have hbefore := ht.le_min_iff m
    simp only [List.forall_mem_append, List.forall_mem_singleton, ← hbefore, hmin]
    by_cases hz : s.clamp v = 0
    · simp [hz]
    · cases hsmall : h.smallest <;>
        simp [hz, hsmall, Histogram.minPositive, Histogram.lesser, Scale.le_least_min_iff, ht.scale_eq]

theorem addCounts_toList (ht : Tally s h values) (ho : Tally s other more) (slot : Nat) :
    (Histogram.addCounts h.counts other.counts.toList)[slot]? =
      if s.tally (values ++ more) slot = 0 then none else some (s.tally (values ++ more) slot) := by
  rw [s.tally_append]
  have hentry := ho.getElem?_eq slot
  by_cases hz : s.tally more slot = 0
  · rw [if_pos hz] at hentry
    have hout : slot ∉ other.counts.toList.map Prod.fst := by
      intro hm
      obtain ⟨⟨k, n⟩, hp, rfl⟩ := List.mem_map.1 hm
      rw [Std.TreeMap.mem_toList_iff_getElem?_eq_some, hentry] at hp
      cases hp
    rw [Histogram.getElem?_addCounts_of_notMem hout, ht.getElem?_eq, hz, Nat.add_zero]
  · rw [if_neg hz] at hentry
    have hin := Std.TreeMap.mem_toList_iff_getElem?_eq_some.2 hentry
    rw [Histogram.getElem?_addCounts_of_mem (Histogram.nodup_keys _) hin, ht.getD_eq,
      if_neg (by omega)]

theorem max_max (ho : Tally s other more) : s.highest other.max = other.max := by
  rw [other.max_eq, ho.scale_eq]
  exact Scale.highest_highest ho.largest_le

theorem least_minPositive (ho : Tally s other more) {p : Nat} (hp : other.minPositive = some p) :
    s.least p = p := by
  rw [Histogram.minPositive, Option.map_eq_some_iff] at hp
  obtain ⟨v, _, rfl⟩ := hp
  rw [ho.scale_eq, Scale.least_least]

theorem merge (ht : Tally s h values) (ho : Tally s other more) (hreach : other.max ≤ s.reach) :
    ∃ m, h.merge? other = some m ∧ Tally s m (values ++ more) := by
  rw [Histogram.merge?, ht.scale_eq, if_neg (Nat.not_lt_of_le hreach)]
  refine ⟨_, rfl, rfl, ?_, ?_, ?_, fun m => ?_, fun m => ?_⟩
  · simp [ht.total_eq, ho.total_eq]
  · intro slot
    rw [Std.TreeMap.foldl_eq_foldl_toList]
    exact addCounts_toList ht ho slot
  · dsimp only
    split
    · rw [other.max_eq]
      exact Scale.highest_le ho.largest_le
    · exact ht.largest_le
  -- the bounds of the other histogram enter rounded, and rounding them again changes nothing
  · rw [List.forall_mem_append, ← ht.max_le_iff, ← ho.max_le_iff, Histogram.max_eq]
    dsimp only
    split
    case isTrue hlt =>
      rw [ho.max_max]
      omega
    case isFalse hle =>
      rw [← ht.scale_eq, ← h.max_eq]
      omega
  · rw [List.forall_mem_append, ← ht.le_min_iff, ← ho.le_min_iff]
    have hmine : h.smallest.map s.least = h.minPositive := by rw [Histogram.minPositive, ht.scale_eq]
    rw [Histogram.minPositive]
    dsimp only
    cases hm : h.minPositive with
    | none =>
      cases hp : other.minPositive with
      | none => simp [hmine, hm]
      | some theirs => simp [ho.least_minPositive hp]
    | some mine =>
      cases hp : other.minPositive with
      | none => simp [hmine, hm]
      | some theirs =>
        have htheirs := ho.least_minPositive hp
        by_cases hlt : theirs < mine
        · have hleast : m ≤ theirs ↔ m ≤ mine ∧ m ≤ theirs := by omega
          simpa [hlt, htheirs] using hleast
        · have hleast : m ≤ mine ↔ m ≤ mine ∧ m ≤ theirs := by omega
          simpa [hlt, hmine, hm] using hleast

theorem max_le_reach_iff (ho : Tally s other more) : other.max ≤ s.reach ↔ s.takes more = true := by
  rw [ho.max_le_iff, Scale.takes, List.all_eq_true]
  simp only [decide_eq_true_eq]

theorem merge?_eq_none_iff (ho : Tally s other more) (hs : h.scale = s) :
    h.merge? other = none ↔ s.takes more = false := by
  rw [← Bool.not_eq_true, ← ho.max_le_reach_iff, Histogram.merge?, hs, Nat.not_le]
  split
  case isTrue hout => exact iff_of_true rfl hout
  case isFalse hin => exact iff_of_false (by simp) hin

section Unique

variable (ht : Tally s h values) (ht' : Tally s h' values)

include ht ht'

theorem counts_equiv : h.counts.Equiv h'.counts :=
  .of_forall_constGet?_eq fun slot => (ht.getElem?_eq slot).trans (ht'.getElem?_eq slot).symm

theorem slots_unique : h.slots = h'.slots := (ht.counts_equiv ht').toList_eq

theorem max_unique : h.max = h'.max := by
  apply eq_of_forall_ge_iff
  intro m
  rw [ht.max_le_iff, ht'.max_le_iff]

theorem minPositive_unique : h.minPositive = h'.minPositive := by
  have hle (m : Nat) : (∀ p ∈ h.minPositive, m ≤ p) ↔ ∀ p ∈ h'.minPositive, m ≤ p := by
    rw [ht.le_min_iff, ht'.le_min_iff]
  cases hp : h.minPositive with
  | none =>
    cases hq : h'.minPositive with
    | none => rfl
    | some q =>
      simp only [hp, hq, Option.mem_def, Option.some.injEq, forall_eq'] at hle
      exact absurd ((hle (q + 1)).1 (by simp)) (Nat.not_succ_le_self q)
  | some p =>
    cases hq : h'.minPositive with
    | none =>
      simp only [hp, hq, Option.mem_def, Option.some.injEq, forall_eq'] at hle
      exact absurd ((hle (p + 1)).2 (by simp)) (Nat.not_succ_le_self p)
    | some q =>
      rw [Option.some_inj]
      apply eq_of_forall_le_iff
      simpa [hp, hq] using hle

theorem min_unique : h.min = h'.min := by
  rw [Histogram.min, Histogram.min, ht.total_eq, ht'.total_eq, (ht.counts_equiv ht').contains_eq,
    ht.minPositive_unique ht']

theorem valueAt_unique (q : Histogram.Quantile) : h.valueAt q = h'.valueAt q := by
  rw [Histogram.valueAt, Histogram.valueAt, ht.total_eq, ht'.total_eq, ht.slots_unique ht',
    ht.scale_eq, ht'.scale_eq]

theorem mean_unique : h.mean = h'.mean := by
  simp only [Histogram.mean, Histogram.representative, ht.total_eq, ht'.total_eq,
    ht.slots_unique ht', ht.scale_eq, ht'.scale_eq]

theorem deviation_unique : h.deviation = h'.deviation := by
  simp only [Histogram.deviation, Histogram.representative, ht.total_eq, ht'.total_eq,
    ht.slots_unique ht', ht.scale_eq, ht'.scale_eq, ht.mean_unique ht']

theorem distribution_unique : Distribution.ofHistogram h = Distribution.ofHistogram h' := by
  rw [Distribution.ofHistogram, Distribution.ofHistogram, ht.total_eq, ht'.total_eq,
    ht.min_unique ht', ht.max_unique ht', ht.valueAt_unique ht', ht.valueAt_unique ht',
    ht.mean_unique ht', ht.deviation_unique ht']

end Unique

end Tally

theorem Distribution.ofHistogram_count (h : Histogram) : (ofHistogram h).count = h.total := by
  rw [ofHistogram]
  split
  case isTrue hz => exact hz.symm
  case isFalse => rfl

theorem tally_foldl_record {s : Scale} (hs : s.limit ≤ Numeral.maxWord) (values : List Nat) :
    Tally s (values.foldl Histogram.record (.empty s)) values := by
  induction values using List.reverseRecOn with
  | nil => exact .empty s
  | append_singleton values v ih =>
    rw [List.foldl_append]
    exact ih.record hs v

end TrafficMonitor.Sketch
