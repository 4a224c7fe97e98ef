import TrafficMonitor.Proofs.Log.Targets
import TrafficMonitor.Proofs.Text.Tokens

namespace TrafficMonitor.Log.RequestLine

open Text Text.CharClass

theorem word?_eq (cs : List Char) : word? cs =
    if cs.takeWhile isInk = [] ∨ (cs.dropWhile isInk).takeWhile isSpace = [] then none
    else some (cs.takeWhile isInk, (cs.dropWhile isInk).dropWhile isSpace) := by
  simp only [word?, List.span_eq_takeWhile_dropWhile, ← List.isEmpty_iff, ← Bool.or_eq_true]
  rfl

theorem word?_fromToken {n : Nat} {cs : List Char} (h : fromToken (n + 1) cs ≠ []) :
    word? (fromToken n cs) = some (token n cs, fromToken (n + 1) cs) := by
  rw [fromToken_succ] at h
  have htoken : token n cs ≠ [] := by
    refine token_ne_nil ?_
    intro hnil
    rw [hnil] at h
    exact h rfl
  have hgap : ((fromToken n cs).dropWhile isInk).takeWhile isSpace ≠ [] := by
    cases hrest : (fromToken n cs).dropWhile isInk with
    | nil => exact absurd (congrArg (List.dropWhile isSpace) hrest) h
    | cons c rest =>
      have hc := head?_dropWhile isInk (fromToken n cs) c (congrArg List.head? hrest)
      rw [List.takeWhile_cons_of_pos (by simpa [isInk] using hc)]
      exact List.cons_ne_nil _ _
  rw [word?_eq, ← fromToken_succ]
  exact if_neg (not_or.2 ⟨htoken, hgap⟩)

theorem bind_word?_fromToken {α : Type} {n : Nat} {cs : List Char}
    {next : List Char × List Char → Option α} (h : ∀ word, next (word, []) = none) :
    (word? (fromToken n cs)).bind next = next (token n cs, fromToken (n + 1) cs) := by
  by_cases hrest : fromToken (n + 1) cs = []
  · rw [hrest, h, word?_eq, ← fromToken_succ, hrest]
    split
    case isTrue => rfl
    case isFalse => exact h _
  · rw [word?_fromToken hrest]
    rfl

theorem here?_fromToken (n : Nat) (cs : List Char) : here? (fromToken n cs) =
    (target? (token (n + 1) cs)).bind fun (path, query) =>
      (protocol? (fromToken (n + 2) cs)).map fun protocol =>
        ⟨.ofList (token n cs), .ofList path, .ofList query, .ofList protocol⟩ := by
  simp only [here?, Option.bind_eq_bind, Option.map_eq_bind]
  rw [bind_word?_fromToken, bind_word?_fromToken]
  · rfl
  · intro word
    cases target? word <;> rfl
  · intro word
    rfl

theorem search?_dropWhile (cs : List Char) : search? true (cs.dropWhile isSpace) = search? true cs := by
  induction cs with
  | nil => rfl
  | cons c cs ih =>
    by_cases hc : isSpace c = true
    · rw [List.dropWhile_cons_of_pos hc, ih, search?, if_pos hc]
    · rw [List.dropWhile_cons_of_neg hc]

theorem search?_false (cs : List Char) : search? false cs = search? true (cs.dropWhile isInk) := by
  induction cs with
  | nil => rfl
  | cons c cs ih =>
    by_cases hc : isSpace c = true
    · rw [List.dropWhile_cons_of_neg (by simp [isInk, hc]), search?, search?, if_pos hc, if_pos hc]
    · rw [List.dropWhile_cons_of_pos (by simpa [isInk] using hc), search?, if_neg hc, ← ih]
      rfl

theorem search?_eq_or (cs : List Char) :
    search? true cs = (here? (fromToken 0 cs)).or (search? true (afterToken cs)) := by
  have hafter : afterToken cs = (fromToken 0 cs).dropWhile isInk := rfl
  rw [← search?_dropWhile, hafter]
  change search? true (fromToken 0 cs) = _
  cases hstart : fromToken 0 cs with
  | nil => rfl
  | cons c rest =>
    have hink : isInk c = true := head?_fromToken c (congrArg List.head? hstart)
    have hc : ¬isSpace c = true := by simpa [isInk] using hink
    rw [List.dropWhile_cons_of_pos hink, ← search?_false, search?, if_neg hc, if_pos rfl]
    cases here? (c :: rest) <;> rfl

theorem length_afterToken_lt {cs : List Char} (h : fromToken 0 cs ≠ []) :
    (afterToken cs).length < cs.length := by
  have hlength := congrArg List.length (token_append_afterToken cs)
  have hstart := List.length_dropWhile_le isSpace cs
  have htoken := List.length_pos_of_ne_nil (token_ne_nil h)
  rw [List.length_append] at hlength
  change (fromToken 0 cs).length ≤ cs.length at hstart
  omega

theorem exists_of_search?_eq_some {cs : List Char} {line : RequestLine}
    (h : search? true cs = some line) : ∃ n, here? (fromToken n cs) = some line := by
  induction hlength : cs.length using Nat.strong_induction_on generalizing cs with
  | h length ih =>
    rw [search?_eq_or, Option.or_eq_some_iff] at h
    rcases h with hhere | ⟨-, hafter⟩
    · exact ⟨0, hhere⟩
    · by_cases hstart : fromToken 0 cs = []
      · rw [show afterToken cs = [] from congrArg (List.dropWhile isInk) hstart] at hafter
        cases hafter
      · obtain ⟨n, hn⟩ := ih _ (hlength ▸ length_afterToken_lt hstart) hafter rfl
        exact ⟨n + 1, hn⟩

theorem search?_eq_of_first {cs : List Char} {n : Nat} (h : (here? (fromToken n cs)).isSome)
    (hbefore : ∀ m < n, here? (fromToken m cs) = none) : search? true cs = here? (fromToken n cs) := by
  induction n generalizing cs with
  | zero => rw [search?_eq_or, Option.or_eq_left_of_isSome h]
  | succ n ih =>
    rw [search?_eq_or, hbefore 0 n.succ_pos, Option.none_or]
    exact ih h fun m hm => hbefore (m + 1) (Nat.succ_lt_succ hm)

theorem search?_eq_none_iff (cs : List Char) :
    search? true cs = none ↔ ∀ n, here? (fromToken n cs) = none := by
  constructor
  · intro h n
    induction n using Nat.strong_induction_on with
    | h n ih =>
      by_contra hne
      have hsome := Option.isSome_iff_ne_none.2 hne
      rw [search?_eq_of_first hsome ih] at h
      rw [h] at hsome
      cases hsome
  · intro h
    cases hsearch : search? true cs with
    | none => rfl
    | some line =>
      obtain ⟨n, hn⟩ := exists_of_search?_eq_some hsearch
      rw [h n] at hn
      cases hn

end TrafficMonitor.Log.RequestLine
