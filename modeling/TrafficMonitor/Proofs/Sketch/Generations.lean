import Mathlib.Data.List.Forall2
import TrafficMonitor.Proofs.Sketch.Tally

namespace TrafficMonitor.Sketch

open Text

theorem RollingHistogram.retired_rotate {h : RollingHistogram} (hlen : h.retired.length < h.capacity) :
    h.rotate.retired = (h.retired ++ [h.current]).drop (h.retired.length + 2 - h.capacity) := by
  rw [rotate]
  dsimp only
  split
  case isTrue hone =>
    have hnil : h.retired = [] := List.eq_nil_of_length_eq_zero (by omega)
    have hcapacity : h.capacity = 1 := by omega
    simp [hnil, hcapacity]
  case isFalse hmore =>
    split
    case isTrue hfull =>
      have hdrop : h.retired.length + 2 - h.capacity = 1 := by omega
      rw [hdrop, List.drop_append_of_le_length (by omega)]
    case isFalse hroom =>
      have hdrop : h.retired.length + 2 - h.capacity = 0 := by omega
      rw [hdrop, List.drop_zero]

structure Generations (s : Scale) (capacity : Nat) (h : RollingHistogram) (retired : List (List Nat))
    (current : List Nat) : Prop where
  capacity_eq : h.capacity = capacity
  length_lt : retired.length < capacity
  current_tally : Tally s h.current current
  retired_tally : List.Forall₂ (Tally s) h.retired retired

namespace Generations

variable {s : Scale} {capacity : Nat} {h : RollingHistogram} {retired : List (List Nat)}
  {current : List Nat}

theorem create {limit digits : Nat} (hc : RollingHistogram.create limit digits capacity = .ok h) :
    ∃ s, Scale.create limit digits = .ok s ∧ Generations s (max capacity 1) h [] [] := by
  cases hs : Scale.create limit digits with
  | error e =>
    rw [RollingHistogram.create_of_error hs] at hc
    cases hc
  | ok s =>
    rw [RollingHistogram.create_of_scale hs] at hc
    split at hc
    case isTrue =>
      obtain rfl := Except.ok.inj hc
      exact ⟨s, rfl, rfl, Nat.le_max_right _ _, .empty s, .nil⟩
    case isFalse => cases hc

theorem record (hg : Generations s capacity h retired current) (hs : s.limit ≤ Numeral.maxWord)
    (v : Nat) : Generations s capacity (h.record v) retired (current ++ [v]) :=
  ⟨hg.capacity_eq, hg.length_lt, hg.current_tally.record hs v, hg.retired_tally⟩

theorem rotate (hg : Generations s capacity h retired current) :
    Generations s capacity h.rotate
      ((retired ++ [current]).drop (retired.length + 2 - capacity)) [] := by
  have hlength := hg.retired_tally.length_eq
  have hretired := RollingHistogram.retired_rotate (hlength ▸ hg.capacity_eq ▸ hg.length_lt)
  refine ⟨hg.capacity_eq, ?_, hg.current_tally.scale_eq ▸ .empty _, ?_⟩
  · have hlt := hg.length_lt
    rw [List.length_drop, List.length_append, List.length_singleton]
    omega
  · rw [hretired, hlength, hg.capacity_eq]
    apply List.forall₂_drop
    exact List.rel_append hg.retired_tally (.cons hg.current_tally .nil)

theorem tally_foldl_merge {merged : Histogram} {values : List Nat} {others : List Histogram}
    {blocks : List (List Nat)} (ht : Tally s merged values)
    (ho : List.Forall₂ (Tally s) others blocks) :
    Tally s (others.foldl (fun merged other => (merged.merge? other).getD merged) merged)
      (values ++ (blocks.filter s.takes).flatten) := by
  induction ho generalizing merged values with
  | nil => simpa using ht
  | @cons other block others blocks hother _ ih =>
    rw [List.foldl_cons, List.filter_cons]
    by_cases htakes : s.takes block = true
    · obtain ⟨m, hm, htm⟩ := ht.merge hother (hother.max_le_reach_iff.2 htakes)
      rw [if_pos htakes, hm, Option.getD_some, List.flatten_cons, ← List.append_assoc]
      exact ih htm
    · have hnone := (hother.merge?_eq_none_iff ht.scale_eq).2 (Bool.of_not_eq_true htakes)
      rw [if_neg htakes, hnone, Option.getD_none]
      exact ih ht

theorem merge_taken (hg : Generations s capacity h retired current) :
    Tally s h.merge (current ++ (retired.filter s.takes).flatten) :=
  tally_foldl_merge hg.current_tally hg.retired_tally

theorem merge (hg : Generations s capacity h retired current) (hs : s.bound ≤ Numeral.maxWord) :
    Tally s h.merge (current ++ retired.flatten) := by
  have hall : retired.filter s.takes = retired :=
    List.filter_eq_self.2 fun block _ => Scale.takes_of_bound hs block
  have hmerged := hg.merge_taken
  rwa [hall] at hmerged

end Generations

end TrafficMonitor.Sketch
