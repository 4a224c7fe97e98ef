import Mathlib.Data.List.DropRight
import TrafficMonitor.Proofs.Sketch.Generations

/-! However values and rotations follow each other, a rolling histogram answers like one histogram of
the values of the generations it holds. The one exception is a retired generation that reports the last
64-bit value: a scale whose limit is in the upper half of the 64-bit values does not reach it. -/

namespace TrafficMonitor.Sketch

open Text

namespace Histogram

structure Alike (h h' : Histogram) : Prop where
  total_eq : h.total = h'.total
  slots_eq : h.slots = h'.slots
  min_eq : h.min = h'.min
  max_eq : h.max = h'.max
  valueAt_eq : ∀ q, h.valueAt q = h'.valueAt q
  mean_eq : h.mean = h'.mean
  deviation_eq : h.deviation = h'.deviation

def recorded (s : Scale) (values : List Nat) : Histogram := values.foldl record (empty s)

end Histogram

theorem Tally.alike {s : Scale} {h h' : Histogram} {values : List Nat} (ht : Tally s h values)
    (ht' : Tally s h' values) : h.Alike h' :=
  ⟨ht.total_eq.trans ht'.total_eq.symm, ht.slots_unique ht', ht.min_unique ht', ht.max_unique ht',
    ht.valueAt_unique ht', ht.mean_unique ht', ht.deviation_unique ht'⟩

theorem tally_recorded {s : Scale} (hs : s.limit ≤ Numeral.maxWord) (values : List Nat) :
    Tally s (.recorded s values) values := tally_foldl_record hs values

namespace Scale

variable {s : Scale}

theorem maxWord_lt_bound_iff : Numeral.maxWord < s.bound ↔ 2 ^ 63 ≤ s.limit := by
  constructor
  · intro h
    by_contra hlt
    have hle := s.bound_le (show 18 ≤ 63 by decide) (Nat.lt_of_not_le hlt)
    exact absurd (h.trans_le hle) (by decide)
  · intro h
    have hbits : 63 < s.magnitude + s.bucketOf s.limit :=
      (Nat.pow_lt_pow_iff_right (by decide)).1 (h.trans_lt (s.lt_of_bucketOf s.limit))
    have hpow : 2 ^ 64 ≤ s.bound := Nat.pow_le_pow_right (by decide) hbits
    exact Nat.lt_of_lt_of_le (by decide) hpow

theorem takes_eq_false_iff {values : List Nat} (hv : ∀ v ∈ values, v ≤ Numeral.maxWord) :
    s.takes values = false ↔ 2 ^ 63 ≤ s.limit ∧ Numeral.maxWord ∈ values := by
  rw [← maxWord_lt_bound_iff]
  by_cases hbound : s.bound ≤ Numeral.maxWord
  · refine iff_of_false ?_ fun h => Nat.not_lt_of_le hbound h.1
    rw [takes_of_bound hbound]
    decide
  · have hword := Nat.lt_of_not_le hbound
    have hreach : s.reach = Numeral.maxWord - 1 := congrArg (· - 1) (Nat.min_eq_right hword.le)
    -- a slot that holds another value ends before the last 64-bit value
    have hout (v : Nat) (hle : v ≤ Numeral.maxWord) :
        s.reach < s.highest (s.clamp v) ↔ v = Numeral.maxWord := by
      rw [clamp_of_lt_bound (hle.trans_lt hword), hreach]
      by_cases he : v = Numeral.maxWord
      · have hhighest : s.highest v = v := if_pos he
        rw [hhighest, he]
        decide
      · rw [highest_of_ne he]
        omega
    rw [← Bool.not_eq_true, takes, List.all_eq_true]
    simp only [decide_eq_true_eq, not_forall, Nat.not_le, hword, true_and]
    constructor
    · rintro ⟨v, hmem, hlt⟩
      rwa [(hout v (hv v hmem)).1 hlt] at hmem
    · intro hmem
      exact ⟨_, hmem, (hout _ (Nat.le_refl _)).2 rfl⟩

end Scale

section Blocks

theorem rtake_concat {α : Type} (l : List α) (x : α) (n : Nat) :
    (l ++ [x]).rtake n = (l.rtake n ++ [x]).rtake n := by
  cases n with
  | zero => rw [List.rtake_zero, List.rtake_zero]
  | succ n =>
    have hshort : (l.rtake (n + 1)).rtake n = l.rtake n := by
      simp only [List.rtake_eq_reverse_take_reverse, List.reverse_reverse, List.take_take]
      rw [Nat.min_eq_left (Nat.le_succ n)]
    rw [List.rtake_concat_succ, List.rtake_concat_succ, hshort]

theorem length_rtake {α : Type} (l : List α) (n : Nat) : (l.rtake n).length = min l.length n := by
  rw [List.rtake, List.length_drop]
  omega

theorem eq_nil_of_length_filter {α : Type} {p : List α → Bool} {blocks : List (List α)}
    (h : blocks.flatten.length ≤ (blocks.filter p).flatten.length) :
    ∀ block ∈ blocks, p block = false → block = [] := by
  intro block hb hp
  have hsplit := (List.filter_append_perm p blocks).flatten.length_eq
  rw [List.flatten_append, List.length_append] at hsplit
  have hnil : (blocks.filter fun b => !p b).flatten = [] :=
    List.eq_nil_of_length_eq_zero (by omega)
  exact List.flatten_eq_nil_iff.1 hnil block (List.mem_filter.2 ⟨hb, by rw [hp]; rfl⟩)

end Blocks

namespace RollingHistogram

inductive Action where
  | record (value : UInt64)
  | rotate
  deriving DecidableEq

def Action.isRotation : Action → Bool
  | .record _ => false
  | .rotate => true

def after (h : RollingHistogram) : Action → RollingHistogram
  | .record value => h.record value.toNat
  | .rotate => h.rotate

def afterAll (h : RollingHistogram) (actions : List Action) : RollingHistogram :=
  actions.foldl after h

structure History where
  retired : List (List Nat)
  current : List Nat

def History.after (g : History) : Action → History
  | .record value => { g with current := g.current ++ [value.toNat] }
  | .rotate => ⟨g.retired ++ [g.current], []⟩

def history (actions : List Action) : History := actions.foldl History.after ⟨[], []⟩

def valuesSince : Nat → List Action → List Nat
  | _, [] => []
  | n, .record value :: actions => valuesSince n actions ++ [value.toNat]
  | 0, .rotate :: _ => []
  | n + 1, .rotate :: actions => valuesSince n actions

theorem history_concat (actions : List Action) (action : Action) :
    history (actions ++ [action]) = (history actions).after action := by
  rw [history, List.foldl_append]
  rfl

theorem length_retired_history (actions : List Action) :
    (history actions).retired.length = actions.countP Action.isRotation := by
  induction actions using List.reverseRecOn with
  | nil => rfl
  | append_singleton actions action ih =>
    rw [history_concat, List.countP_append, ← ih]
    cases action with
    | record value => rfl
    | rotate => exact List.length_append

theorem le_maxWord_of_mem_history (actions : List Action) :
    (∀ block ∈ (history actions).retired, ∀ v ∈ block, v ≤ Numeral.maxWord) ∧
      ∀ v ∈ (history actions).current, v ≤ Numeral.maxWord := by
  induction actions using List.reverseRecOn with
  | nil => exact ⟨nofun, nofun⟩
  | append_singleton actions action ih =>
    rw [history_concat]
    cases action with
    | record value =>
      refine ⟨ih.1, fun v hv => ?_⟩
      rcases List.mem_append.1 hv with hv | hv
      · exact ih.2 v hv
      · rw [List.mem_singleton.1 hv]
        exact Nat.le_pred_of_lt value.toNat_lt
    | rotate =>
      refine ⟨fun block hb => ?_, nofun⟩
      rcases List.mem_append.1 hb with hb | hb
      · exact ih.1 block hb
      · rw [List.mem_singleton.1 hb]
        exact ih.2

theorem flatten_rtake_history (n : Nat) (actions : List Action) :
    ((history actions.reverse).retired.rtake n).flatten ++ (history actions.reverse).current =
      valuesSince n actions := by
  induction actions generalizing n with
  | nil => rw [valuesSince, List.reverse_nil, history, List.foldl_nil, List.rtake_nil]; rfl
  | cons action actions ih =>
    rw [List.reverse_cons, history_concat]
    cases action with
    | record value => rw [valuesSince, ← ih, History.after, List.append_assoc]
    | rotate =>
      cases n with
      | zero => rw [valuesSince, History.after, List.rtake_zero]; rfl
      | succ n => rw [valuesSince, ← ih, History.after, List.rtake_concat_succ]; simp

theorem generations_afterAll {s : Scale} {capacity : Nat} {fresh : RollingHistogram}
    (hg : Generations s capacity fresh [] []) (hs : s.limit ≤ Numeral.maxWord)
    (actions : List Action) :
    Generations s capacity (fresh.afterAll actions) ((history actions).retired.rtake (capacity - 1))
      (history actions).current := by
  induction actions using List.reverseRecOn with
  | nil => simpa [history, afterAll] using hg
  | append_singleton actions action ih =>
    have hlt := hg.length_lt
    rw [history_concat, afterAll, List.foldl_append]
    cases action with
    | record value => exact ih.record hs value.toNat
    | rotate =>
      have hrotated := ih.rotate
      have hdrop : ((history actions).retired.rtake (capacity - 1)).length + 2 - capacity =
          ((history actions).retired.rtake (capacity - 1) ++ [(history actions).current]).length -
            (capacity - 1) := by
        rw [List.length_append, List.length_singleton]
        omega
      rw [hdrop] at hrotated
      rw [History.after, rtake_concat]
      exact hrotated

section Merge

variable {s : Scale} {capacity : Nat} {fresh : RollingHistogram}

theorem flatten_rtake_append_current (n : Nat) (actions : List Action) :
    ((history actions).retired.rtake n).flatten ++ (history actions).current =
      valuesSince n actions.reverse := by
  rw [← flatten_rtake_history, List.reverse_reverse]

theorem tally_merge_taken (hg : Generations s capacity fresh [] []) (hs : s.limit ≤ Numeral.maxWord)
    (actions : List Action) :
    Tally s (fresh.afterAll actions).merge
      ((((history actions).retired.rtake (capacity - 1)).filter s.takes).flatten ++
        (history actions).current) :=
  (generations_afterAll hg hs actions).merge_taken.perm List.perm_append_comm

theorem tally_merge (hg : Generations s capacity fresh [] []) (hs : s.limit ≤ Numeral.maxWord)
    {actions : List Action}
    (htaken : ∀ block ∈ (history actions).retired.rtake (capacity - 1), s.takes block = true) :
    Tally s (fresh.afterAll actions).merge (valuesSince (capacity - 1) actions.reverse) := by
  have hmerged := tally_merge_taken hg hs actions
  rwa [List.filter_eq_self.2 htaken, flatten_rtake_append_current] at hmerged

theorem takes_of_total_merge (hg : Generations s capacity fresh [] []) (hs : s.limit ≤ Numeral.maxWord)
    {actions : List Action}
    (htotal : (fresh.afterAll actions).merge.total =
      (valuesSince (capacity - 1) actions.reverse).length) :
    ∀ block ∈ (history actions).retired.rtake (capacity - 1), s.takes block = true := by
  intro block hb
  have hshort := (tally_merge_taken hg hs actions).total_eq
  rw [htotal, ← flatten_rtake_append_current, List.length_append, List.length_append] at hshort
  by_contra hout
  have hnil := eq_nil_of_length_filter (by omega) block hb (Bool.of_not_eq_true hout)
  exact hout (hnil ▸ rfl)

end Merge

/-- A rolling histogram answers like one histogram of all values behind the last rotation that dropped
a generation, but for the generations that its merge leaves out: with a limit of `2 ^ 63` or more, those
retired that hold the last 64-bit value. -/
theorem merge_alike_recorded {limit : UInt64} {digits buckets : Nat} {fresh : RollingHistogram}
    (hc : create limit.toNat digits buckets = .ok fresh) (actions : List Action) :
    let capacity := max buckets 1
    let h := fresh.afterAll actions
    let old := (history actions).retired.rtake (capacity - 1)
    let current := (history actions).current
    let isTaken (block : List Nat) : Bool := limit.toNat < 2 ^ 63 || Numeral.maxWord ∉ block
    h.held = min (actions.countP Action.isRotation + 1) capacity ∧
    current = valuesSince 0 actions.reverse ∧ h.currentCount = current.length ∧
    old.flatten ++ current = valuesSince (capacity - 1) actions.reverse ∧
    ∃ s, Scale.create limit.toNat digits = .ok s ∧
      (h.merge.Alike (.recorded s (valuesSince (capacity - 1) actions.reverse)) ↔
        ∀ block ∈ old, isTaken block = true) ∧
      h.merge.Alike (.recorded s ((old.filter isTaken).flatten ++ current)) ∧
      List.Forall₂ (fun other block => ∀ merged : Histogram, merged.scale = s →
        (merged.merge? other = none ↔ isTaken block = false)) h.retired old := by
  intro capacity h old current isTaken
  obtain ⟨s, hs, hg⟩ := Generations.create hc
  have hlimit : s.limit = limit.toNat := Scale.limit_of_create hs
  have hword : s.limit ≤ Numeral.maxWord := hlimit ▸ Nat.le_pred_of_lt limit.toNat_lt
  have hgens : Generations s capacity h old current := generations_afterAll hg hword actions
  have hvalues : ∀ block ∈ old, ∀ v ∈ block, v ≤ Numeral.maxWord := fun block hb =>
    (le_maxWord_of_mem_history actions).1 block (List.mem_of_mem_drop hb)
  have htakes : ∀ block ∈ old, s.takes block = isTaken block := by
    intro block hb
    rw [← Bool.not_inj_iff, Bool.eq_iff_iff]
    simp only [Bool.not_eq_true', Scale.takes_eq_false_iff (hvalues block hb), hlimit, isTaken]
    simp
  have hfilter : old.filter s.takes = old.filter isTaken := List.filter_congr htakes
  have hmerged : Tally s h.merge ((old.filter s.takes).flatten ++ current) :=
    tally_merge_taken hg hword actions
  rw [hfilter] at hmerged
  have hall : old.flatten ++ current = valuesSince (capacity - 1) actions.reverse :=
    flatten_rtake_append_current _ _
  refine ⟨?_, ?_, hgens.current_tally.total_eq, hall, s, hs, ⟨?_, ?_⟩, hmerged.alike (tally_recorded hword _), ?_⟩
  · have hold : old.length = min (actions.countP Action.isRotation) (capacity - 1) := by
      rw [length_rtake, length_retired_history]
    have hpos : 1 ≤ capacity := Nat.le_max_right _ _
    rw [held, hgens.retired_tally.length_eq, hold]
    omega
  · rw [← flatten_rtake_append_current, List.rtake_zero]
    rfl
  · intro hsame block hb
    rw [← htakes block hb]
    exact takes_of_total_merge hg hword (hsame.total_eq.trans (tally_recorded hword _).total_eq) block hb
  · intro htaken
    refine (tally_merge hg hword fun block hb => ?_).alike (tally_recorded hword _)
    rw [htakes block hb]
    exact htaken block hb
  · obtain ⟨hlength, htallies⟩ := List.forall₂_iff_zip.1 hgens.retired_tally
    refine List.forall₂_iff_zip.2 ⟨hlength, fun hp merged hmerging => ?_⟩
    rw [(htallies hp).merge?_eq_none_iff hmerging, htakes _ (List.of_mem_zip hp).2]

theorem merge_alike_recorded_partly :
    let actions : List Action :=
      [.record 18446744073709551615, .rotate, .record 7, .rotate, .record 18446744073709551615]
    ∃ fresh s, create (2 ^ 64 - 1) 3 3 = .ok fresh ∧ Scale.create (2 ^ 64 - 1) 3 = .ok s ∧
      let h := fresh.afterAll actions
      h.held = 3 ∧ h.currentCount = 1 ∧ h.merge.Alike (.recorded s [7, 2 ^ 64 - 1]) ∧
      ¬h.merge.Alike (.recorded s (valuesSince 2 actions.reverse)) := by
  intro actions
  obtain ⟨fresh, hfresh⟩ : ∃ fresh, create (18446744073709551615 : UInt64).toNat 3 3 = .ok fresh :=
    ⟨_, rfl⟩
  obtain ⟨hheld, -, hcount, -, s, hs, hall, htaken, -⟩ := merge_alike_recorded hfresh actions
  refine ⟨fresh, s, hfresh, hs, hheld.trans rfl, hcount.trans rfl, htaken, ?_⟩
  intro hsame
  exact absurd (hall.1 hsame [2 ^ 64 - 1] (by decide)) (by decide)

theorem last_word_left_out :
    let actions : List Action := [.record 18446744073709551615, .rotate]
    ∃ fresh s, create (2 ^ 64 - 1) 3 2 = .ok fresh ∧ Scale.create (2 ^ 64 - 1) 3 = .ok s ∧
      let h := fresh.afterAll actions
      let single := Histogram.recorded s (valuesSince 1 actions.reverse)
      valuesSince 1 actions.reverse = [2 ^ 64 - 1] ∧ h.held = 2 ∧
      (∃ other ∈ h.retired, h.current.merge? other = none) ∧
      h.merge.total = 0 ∧ single.total = 1 ∧ ¬h.merge.Alike single := by
  intro actions
  refine ⟨_, _, rfl, rfl, rfl, rfl, ⟨_, List.mem_singleton.2 rfl, ?_⟩, ?_, rfl, ?_⟩
  · apply Option.isNone_iff_eq_none.1
    decide
  · decide
  · intro hsame
    exact absurd hsame.total_eq (by decide)

end RollingHistogram

end TrafficMonitor.Sketch
