import Mathlib.Data.List.Basic
import Mathlib.Data.List.TakeWhile

/-!
Choices in the order in which they are tried. A part of a pattern has for its choices the ways to read it
at the start of a text, each with the text that is left, and the first choice that leads on is taken.
-/

namespace TrafficMonitor.Text

theorem findSome?_congr {α β : Type} {f g : α → Option β} {choices : List α}
    (h : ∀ a ∈ choices, f a = g a) : choices.findSome? f = choices.findSome? g := by
  rw [← List.head?_filterMap, ← List.head?_filterMap, List.filterMap_congr h]

theorem findSome?_eq_of_forall_ne {α β : Type} {next : α → Option β} {choices : List α} {a : α}
    (h : ∀ b ∈ choices, b ≠ a → next b = none) (ha : a ∈ choices) : choices.findSome? next = next a := by
  induction choices with
  | nil => cases ha
  | cons b choices ih =>
    rw [List.forall_mem_cons] at h
    by_cases hb : b = a
    · subst hb
      rw [List.findSome?_cons]
      cases hnext : next b with
      | some => rfl
      | none =>
        -- The one choice leads nowhere, nor does it where it stands again.
        refine List.findSome?_eq_none_iff.2 fun c hc => ?_
        by_cases heq : c = b
        · rw [heq, hnext]
        · exact h.2 c hc heq
    · rw [List.findSome?_cons, h.1 hb]
      exact ih h.2 ((List.mem_cons.1 ha).resolve_left (Ne.symm hb))

theorem findSome?_bind_map {α β γ δ : Type} (g : α → Option β) (found : β → γ → δ) (ending : Option γ)
    (choices : List α) : (choices.findSome? fun a => (g a).bind fun b => ending.map (found b)) =
      (choices.findSome? g).bind fun b => ending.map (found b) := by
  cases ending with
  | none =>
    simp only [Option.map_none, Option.bind_fun_none]
    exact List.findSome?_eq_none_iff.2 fun _ _ => rfl
  | some c =>
    have hmap (o : Option β) : (o.bind fun b => (some c).map (found b)) = o.map fun b => found b c := by
      cases o <;> rfl
    simp only [hmap]
    exact List.map_findSome?.symm

def many (p : Char → Bool) : List Char → List (List Char × List Char)
  | [] => []
  | c :: cs =>
    if p c then (many p cs).map (fun (run, rest) => (c :: run, rest)) ++ [([c], cs)] else []

theorem many_of_pos {p : Char → Bool} {c : Char} (hc : p c = true) (cs : List Char) :
    many p (c :: cs) = (many p cs).map (fun (run, rest) => (c :: run, rest)) ++ [([c], cs)] :=
  if_pos hc

theorem many_of_neg {p : Char → Bool} {c : Char} (hc : ¬p c = true) (cs : List Char) :
    many p (c :: cs) = [] :=
  if_neg hc

theorem mem_many {p : Char → Bool} {cs run rest : List Char} :
    (run, rest) ∈ many p cs ↔ run ≠ [] ∧ run ++ rest = cs ∧ ∀ c ∈ run, p c = true := by
  induction cs generalizing run with
  | nil =>
    refine iff_of_false List.not_mem_nil ?_
    rintro ⟨hne, happend, -⟩
    exact hne (List.append_eq_nil_iff.1 happend).1
  | cons c cs ih =>
    by_cases hc : p c = true
    · rw [many_of_pos hc, List.mem_append, List.mem_map, List.mem_singleton]
      constructor
      · rintro (⟨⟨run, rest⟩, hmem, heq⟩ | heq)
        · cases heq
          obtain ⟨-, rfl, hrun⟩ := ih.1 hmem
          exact ⟨List.cons_ne_nil _ _, rfl, List.forall_mem_cons.2 ⟨hc, hrun⟩⟩
        · cases heq
          exact ⟨List.cons_ne_nil _ _, rfl, List.forall_mem_singleton.2 hc⟩
      · rintro ⟨hne, happend, hrun⟩
        obtain ⟨d, run, rfl⟩ := List.exists_cons_of_ne_nil hne
        obtain ⟨rfl, rfl⟩ := List.cons.inj happend
        rw [List.forall_mem_cons] at hrun
        by_cases hnil : run = []
        · exact .inr (by rw [hnil]; rfl)
        · exact .inl ⟨(run, rest), ih.2 ⟨hnil, rfl, hrun.2⟩, rfl⟩
    · rw [many_of_neg hc]
      refine iff_of_false List.not_mem_nil ?_
      rintro ⟨hne, happend, hrun⟩
      obtain ⟨d, run, rfl⟩ := List.exists_cons_of_ne_nil hne
      obtain ⟨rfl, -⟩ := List.cons.inj happend
      exact hc (hrun _ List.mem_cons_self)

theorem findSome?_many {α : Type} {p : Char → Bool} {next : List Char × List Char → Option α}
    (h : ∀ run c rest, p c = true → next (run, c :: rest) = none) (cs : List Char) :
    (many p cs).findSome? next =
      if cs.takeWhile p = [] then none else next (cs.takeWhile p, cs.dropWhile p) := by
  induction cs generalizing next with
  | nil => rfl
  | cons c cs ih =>
    by_cases hc : p c = true
    · rw [many_of_pos hc, List.findSome?_append, List.findSome?_map,
        ih fun run => h (c :: run), List.takeWhile_cons_of_pos hc, List.dropWhile_cons_of_pos hc,
        if_neg (List.cons_ne_nil _ _), List.findSome?_singleton]
      -- The run of one character is tried last, and of use only if it is the whole run.
      cases cs with
      | nil => rfl
      | cons d cs =>
        by_cases hd : p d = true
        · rw [h [c] d cs hd, Option.or_none, if_neg]
          · rfl
          · rw [List.takeWhile_cons_of_pos hd]
            exact List.cons_ne_nil _ _
        · rw [List.takeWhile_cons_of_neg hd, List.dropWhile_cons_of_neg hd]
          rfl
    · rw [many_of_neg hc, List.takeWhile_cons_of_neg hc]
      rfl

theorem head?_many (p : Char → Bool) (cs : List Char) : (many p cs).head? =
    if cs.takeWhile p = [] then none else some (cs.takeWhile p, cs.dropWhile p) := by
  induction cs with
  | nil => rfl
  | cons c cs ih =>
    by_cases hc : p c = true
    · rw [many_of_pos hc, List.head?_append, List.head?_map, ih, List.takeWhile_cons_of_pos hc,
        List.dropWhile_cons_of_pos hc, if_neg (List.cons_ne_nil _ _)]
      have happend : cs.takeWhile p ++ cs.dropWhile p = cs := List.takeWhile_append_dropWhile
      split
      case isTrue hnil =>
        rw [hnil, List.nil_append] at happend
        rw [hnil, happend]
        rfl
      case isFalse => rfl
    · rw [many_of_neg hc, List.takeWhile_cons_of_neg hc]
      rfl

end TrafficMonitor.Text
