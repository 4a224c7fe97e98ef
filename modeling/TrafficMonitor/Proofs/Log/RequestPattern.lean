import TrafficMonitor.Proofs.Log.RequestTokens
import TrafficMonitor.Proofs.Text.Choices
import Mathlib.Data.List.Infix

/-!
The pattern `(\S+)\s+([^?\s]+)((?:[?&][^&\s]+)*)\s+(HTTP/.*)` with all its choices. The reader of request
lines answers with the first of them at the first place that has any.
-/

namespace TrafficMonitor.Log.RequestLine

open Text Text.CharClass

def isPathChar (c : Char) : Bool := isInk c && c != '?'

def isPieceChar (c : Char) : Bool := isInk c && c != '&'

def piece : List Char → List (List Char × List Char)
  | [] => []
  | c :: cs =>
    if c = '?' ∨ c = '&' then (many isPieceChar cs).map fun (text, rest) => (c :: text, rest) else []

theorem mem_piece {cs u rest : List Char} :
    (u, rest) ∈ piece cs ↔ u ++ rest = cs ∧ IsPiece u ∧ ∀ c ∈ u, isInk c = true := by
  constructor
  · intro h
    cases cs with
    | nil => cases h
    | cons c cs =>
      rw [piece] at h
      split at h
      case isTrue hc =>
        obtain ⟨⟨text, rest⟩, hmem, heq⟩ := List.mem_map.1 h
        cases heq
        obtain ⟨hne, rfl, htext⟩ := mem_many.1 hmem
        simp only [isPieceChar, Bool.and_eq_true, bne_iff_ne] at htext
        have hink : isInk c = true := by rcases hc with rfl | rfl <;> rfl
        refine ⟨rfl, .intro hc hne fun hamp => (htext _ hamp).2 rfl, ?_⟩
        exact List.forall_mem_cons.2 ⟨hink, fun d hd => (htext d hd).1⟩
      case isFalse => cases h
  · rintro ⟨rfl, @⟨c, text, opens, ne_nil, single⟩, hink⟩
    rw [List.forall_mem_cons] at hink
    rw [List.cons_append, piece, if_pos opens]
    refine List.mem_map.2 ⟨(text, rest), mem_many.2 ⟨ne_nil, rfl, ?_⟩, rfl⟩
    intro d hd
    rw [isPieceChar, Bool.and_eq_true, bne_iff_ne]
    exact ⟨hink.2 d hd, fun heq => single (heq ▸ hd)⟩

theorem length_lt_of_mem_piece {cs u rest : List Char} (h : (u, rest) ∈ piece cs) :
    rest.length < cs.length := by
  obtain ⟨rfl, hu, -⟩ := mem_piece.1 h
  cases hu
  rw [List.length_append, List.length_cons]
  omega

def pieces (cs : List Char) : List (List Char × List Char) :=
  ((piece cs).attach.flatMap fun ⟨(u, rest), _⟩ =>
    (pieces rest).map fun (us, rest) => (u ++ us, rest)) ++ [([], cs)]
termination_by cs.length
decreasing_by exact length_lt_of_mem_piece ‹_›

theorem pieces_eq (cs : List Char) : pieces cs = ((piece cs).flatMap fun (u, rest) =>
    (pieces rest).map fun (us, rest) => (u ++ us, rest)) ++ [([], cs)] := by
  rw [pieces, List.flatMap_subtype fun _ _ => rfl, List.unattach_attach]

theorem mem_pieces {cs query rest : List Char} :
    (query, rest) ∈ pieces cs ↔ query ++ rest = cs ∧ IsQuery query ∧ ∀ c ∈ query, isInk c = true := by
  constructor
  · intro h
    induction hlength : cs.length using Nat.strong_induction_on generalizing cs query with
    | h length ih =>
      rw [pieces_eq, List.mem_append, List.mem_flatMap, List.mem_singleton] at h
      rcases h with ⟨⟨u, rest'⟩, hu, hquery⟩ | heq
      · obtain ⟨⟨us, rest''⟩, hus, heq⟩ := List.mem_map.1 hquery
        cases heq
        obtain ⟨rfl, hquery, hink⟩ := ih _ (hlength ▸ length_lt_of_mem_piece hu) hus rfl
        obtain ⟨rfl, hpiece, hink'⟩ := mem_piece.1 hu
        exact ⟨List.append_assoc .., hquery.cons hpiece, List.forall_mem_append.2 ⟨hink', hink⟩⟩
      · cases heq
        exact ⟨rfl, .nil, List.forall_mem_nil _⟩
  · rintro ⟨rfl, ⟨us, hus, rfl⟩, hink⟩
    induction us with
    | nil =>
      rw [pieces_eq]
      exact List.mem_append_right _ List.mem_cons_self
    | cons u us ih =>
      rw [List.forall_mem_cons] at hus
      rw [List.flatten_cons, List.forall_mem_append] at hink
      rw [pieces_eq, List.flatten_cons]
      refine List.mem_append_left _ (List.mem_flatMap.2 ⟨(u, us.flatten ++ rest), ?_, ?_⟩)
      · exact mem_piece.2 ⟨(List.append_assoc ..).symm, hus.1, hink.1⟩
      · exact List.mem_map.2 ⟨(us.flatten, rest), ih hus.2 hink.2, rfl⟩

theorem findSome?_pieces {α : Type} {next : List Char × List Char → Option α}
    (h : ∀ query c rest, isInk c = true → next (query, c :: rest) = none) (cs : List Char) :
    (pieces cs).findSome? next =
      if isQuery (cs.takeWhile isInk) then next (cs.takeWhile isInk, cs.dropWhile isInk) else none := by
  have hother : ∀ choice ∈ pieces cs, choice ≠ (cs.takeWhile isInk, cs.dropWhile isInk) →
      next choice = none := by
    rintro ⟨query, rest⟩ hmem hne
    obtain ⟨rfl, -, hink⟩ := mem_pieces.1 hmem
    rw [List.takeWhile_append_of_pos hink, List.dropWhile_append_of_pos hink] at hne
    cases rest with
    | nil => exact absurd (by simp) hne
    | cons c rest =>
      by_cases hc : isInk c = true
      · exact h query c rest hc
      · rw [List.takeWhile_cons_of_neg hc, List.dropWhile_cons_of_neg hc, List.append_nil] at hne
        exact absurd rfl hne
  split
  case isTrue hquery =>
    refine findSome?_eq_of_forall_ne hother (mem_pieces.2 ⟨?_, (isQuery_iff _).1 hquery, ?_⟩)
    · exact List.takeWhile_append_dropWhile
    · exact fun c => List.mem_takeWhile_imp
  case isFalse hquery =>
    refine List.findSome?_eq_none_iff.2 fun choice hmem => hother choice hmem ?_
    rintro rfl
    exact hquery ((isQuery_iff _).2 (mem_pieces.1 hmem).2.1)

theorem splitTarget?_eq_or (cs : List Char) :
    splitTarget? cs = (target? cs).or (if isQuery cs then some ([], cs) else none) := by
  cases cs with
  | nil => rfl
  | cons c cs =>
    by_cases hc : c = '?'
    · rw [splitTarget?, target?, if_pos hc, if_pos hc]
      rfl
    · have hamp : isQuery (c :: cs) = true ↔ c = '&' ∧ isQuery (c :: cs) = true := by
        refine ⟨fun h => ⟨?_, h⟩, And.right⟩
        exact ((isQuery_iff _).1 h).head_eq.resolve_left hc
      rw [splitTarget?, target?, if_neg hc, if_neg hc]
      cases splitTarget? cs with
      | none => exact if_congr hamp.symm rfl rfl
      | some split => rfl

def splitHere? : List Char × List Char → Option (List Char × List Char)
  | (path, rest) => if isQuery (rest.takeWhile isInk) then some (path, rest.takeWhile isInk) else none

theorem findSome?_splitHere? (cs : List Char) :
    (many isPathChar cs).findSome? splitHere? = target? (cs.takeWhile isInk) := by
  induction cs with
  | nil => rfl
  | cons c cs ih =>
    by_cases hink : isInk c = true
    · rw [List.takeWhile_cons_of_pos hink, target?]
      by_cases hc : c = '?'
      · rw [if_pos hc, many_of_neg (by simp [isPathChar, hc])]
        rfl
      · have hpath : isPathChar c = true := by simp [isPathChar, hink, hc]
        rw [if_neg hc, many_of_pos hpath, List.findSome?_append, List.findSome?_map,
          List.findSome?_singleton, splitTarget?_eq_or, Option.map_or, ← ih, List.map_findSome?]
        refine congrArg₂ Option.or (findSome?_congr ?_) ?_
        · rintro ⟨path, rest⟩ -
          simp only [Function.comp, splitHere?]
          split <;> rfl
        · rw [splitHere?]
          split <;> rfl
    · rw [List.takeWhile_cons_of_neg hink, many_of_neg (by simp [isPathChar, hink])]
      rfl

def protocols (cs : List Char) : List (List Char) :=
  if "HTTP/".toList.isPrefixOf cs then
    ((many (· ≠ '\n') (cs.drop 5)).map Prod.fst ++ [[]]).map ("HTTP/".toList ++ ·)
  else []

theorem head?_protocols (cs : List Char) : (protocols cs).head? = protocol? cs := by
  rw [protocols, protocol?]
  split
  case isFalse => rfl
  case isTrue h =>
    obtain ⟨rest, rfl⟩ := List.isPrefixOf_iff_prefix.1 h
    have hrest : ("HTTP/".toList ++ rest).drop 5 = rest := rfl
    rw [List.head?_map, List.head?_append, List.head?_map, hrest, head?_many,
      List.takeWhile_append_of_pos (List.all_eq_true.1 (by decide))]
    split
    case isTrue hnil => rw [hnil]; rfl
    case isFalse => rfl

def readings (cs : List Char) : List RequestLine :=
  (many isInk cs).flatMap fun (method, cs) =>
    (many isSpace cs).flatMap fun (_, cs) =>
      (many isPathChar cs).flatMap fun (path, cs) =>
        (pieces cs).flatMap fun (query, cs) =>
          (many isSpace cs).flatMap fun (_, cs) =>
            (protocols cs).map fun protocol =>
              ⟨.ofList method, .ofList path, .ofList query, .ofList protocol⟩

theorem many_isSpace_eq_nil {c : Char} (hc : isInk c = true) (cs : List Char) :
    many isSpace (c :: cs) = [] :=
  many_of_neg (by simpa [isInk] using hc) cs

theorem protocol?_cons {c : Char} (hc : isSpace c = true) (cs : List Char) : protocol? (c :: cs) = none := by
  rw [protocol?, if_neg]
  intro h
  obtain ⟨rest, hrest⟩ := List.isPrefixOf_iff_prefix.1 h
  obtain ⟨rfl, -⟩ := List.cons.inj hrest
  cases hc

def afterTarget? (line : List Char → RequestLine) (cs : List Char) : Option RequestLine :=
  (many isSpace cs).findSome? fun (_, cs) => (protocol? cs).map line

def afterMethod? (line : List Char → List Char → List Char → RequestLine) (cs : List Char) :
    Option RequestLine :=
  (many isPathChar cs).findSome? fun (path, cs) =>
    (pieces cs).findSome? fun (query, cs) => afterTarget? (line path query) cs

theorem afterTarget?_eq (line : List Char → RequestLine) (cs : List Char) : afterTarget? line cs =
    (if cs.takeWhile isSpace = [] then none else protocol? (cs.dropWhile isSpace)).map line := by
  rw [afterTarget?, findSome?_many]
  · split <;> rfl
  · intro gap c rest hc
    exact congrArg (Option.map line) (protocol?_cons hc rest)

theorem afterMethod?_eq_findSome? (line : List Char → List Char → List Char → RequestLine)
    (cs : List Char) : afterMethod? line cs = (many isPathChar cs).findSome? fun choice =>
      (splitHere? choice).bind fun (path, query) => afterTarget? (line path query) (cs.dropWhile isInk) := by
  refine findSome?_congr ?_
  rintro ⟨path, rest⟩ hmem
  obtain ⟨-, rfl, hpath⟩ := mem_many.1 hmem
  have hink : ∀ c ∈ path, isInk c = true := fun c hc => (Bool.and_eq_true_iff.1 (hpath c hc)).1
  -- Whatever path is tried, the target ends where the white space begins.
  rw [List.dropWhile_append_of_pos hink]
  refine (findSome?_pieces ?_ rest).trans ?_
  · intro query c more hc
    change (many isSpace (c :: more)).findSome? _ = none
    rw [many_isSpace_eq_nil hc]
    rfl
  · rw [splitHere?]
    split <;> rfl

theorem bind_word? {α : Type} (next : List Char × List Char → Option α) (h : ∀ rest, next ([], rest) = none)
    (cs : List Char) : (word? cs).bind next =
      if (cs.dropWhile isInk).takeWhile isSpace = [] then none
      else next (cs.takeWhile isInk, (cs.dropWhile isInk).dropWhile isSpace) := by
  rw [word?_eq]
  by_cases hgap : (cs.dropWhile isInk).takeWhile isSpace = []
  · rw [if_pos (.inr hgap), if_pos hgap]
    rfl
  · rw [if_neg hgap]
    split
    case isTrue hword =>
      rw [hword.resolve_right hgap, h]
      rfl
    case isFalse => rfl

theorem afterMethod?_eq (line : List Char → List Char → List Char → RequestLine) (cs : List Char) :
    afterMethod? line cs = (word? cs).bind fun (target, rest) =>
      (target? target).bind fun (path, query) => (protocol? rest).map (line path query) := by
  rw [afterMethod?_eq_findSome?, bind_word?]
  simp only [afterTarget?_eq]
  rw [findSome?_bind_map, findSome?_splitHere?]
  · split
    case isTrue => cases target? (cs.takeWhile isInk) <;> rfl
    case isFalse => rfl
  · exact fun rest => rfl

theorem afterMethod?_cons {c : Char} (hc : isSpace c = true)
    (line : List Char → List Char → List Char → RequestLine) (cs : List Char) :
    afterMethod? line (c :: cs) = none := by
  rw [afterMethod?, many_of_neg (by simp [isPathChar, isInk, hc])]
  rfl

theorem here?_eq (cs : List Char) : here? cs = (word? cs).bind fun (method, rest) =>
    afterMethod? (fun path query protocol =>
      ⟨.ofList method, .ofList path, .ofList query, .ofList protocol⟩) rest := by
  simp only [afterMethod?_eq, here?, Option.map_eq_bind]
  rfl

theorem head?_readings (cs : List Char) : (readings cs).head? = here? cs := by
  have hchoices : (readings cs).head? =
      (many isInk cs).findSome? fun (method, cs) => (many isSpace cs).findSome? fun (_, cs) =>
        afterMethod? (fun path query protocol =>
          ⟨.ofList method, .ofList path, .ofList query, .ofList protocol⟩) cs := by
    simp only [readings, List.head?_flatMap, List.head?_map, head?_protocols, afterMethod?, afterTarget?]
  rw [hchoices, findSome?_many, here?_eq, word?_eq]
  · by_cases hmethod : cs.takeWhile isInk = []
    · rw [if_pos hmethod, if_pos (.inl hmethod)]
      rfl
    · rw [if_neg hmethod]
      refine (findSome?_many (fun _ c rest hc => afterMethod?_cons hc _ rest) _).trans ?_
      simp only [hmethod, false_or]
      split <;> rfl
  · intro method c rest hc
    change (many isSpace (c :: rest)).findSome? _ = none
    rw [many_isSpace_eq_nil hc]
    rfl

def occurrences (cs : List Char) : List RequestLine := cs.tails.flatMap readings

theorem head?_occurrences (cs : List Char) : (occurrences cs).head? = cs.tails.findSome? here? := by
  simp only [occurrences, List.head?_flatMap, head?_readings]

theorem here?_cons_of_isSpace {c : Char} (hc : isSpace c = true) (cs : List Char) : here? (c :: cs) = none := by
  have hword : (c :: cs).takeWhile isInk = [] := List.takeWhile_cons_of_neg (by simp [isInk, hc])
  rw [here?_eq, word?_eq, if_pos (.inl hword)]
  rfl

theorem word?_cons {c d : Char} (hc : isInk c = true) (hd : isInk d = true) (cs : List Char) :
    word? (c :: d :: cs) = (word? (d :: cs)).map fun (word, rest) => (c :: word, rest) := by
  simp only [word?_eq, List.takeWhile_cons_of_pos hc, List.takeWhile_cons_of_pos hd,
    List.dropWhile_cons_of_pos hc, List.dropWhile_cons_of_pos hd, List.cons_ne_nil, false_or]
  split <;> rfl

theorem afterMethod?_eq_none {line line' : List Char → List Char → List Char → RequestLine}
    {cs : List Char} (h : afterMethod? line cs = none) : afterMethod? line' cs = none := by
  simp only [afterMethod?_eq, Option.bind_eq_none_iff, Option.map_eq_none_iff] at h ⊢
  exact h

theorem here?_eq_none_of_cons {c d : Char} {cs : List Char} (hc : isInk c = true) (hd : isInk d = true)
    (h : here? (c :: d :: cs) = none) : here? (d :: cs) = none := by
  rw [here?_eq] at h ⊢
  rw [word?_cons hc hd] at h
  cases hword : word? (d :: cs) with
  | none => rfl
  | some read =>
    rw [hword, Option.map_some, Option.bind_some] at h
    rw [Option.bind_some]
    exact afterMethod?_eq_none h

theorem search?_eq_findSome? (cs : List Char) : search? true cs = cs.tails.findSome? here? ∧
    ∀ c, isInk c = true → here? (c :: cs) = none → search? false cs = cs.tails.findSome? here? := by
  induction cs with
  | nil => exact ⟨rfl, fun _ _ _ => rfl⟩
  | cons c cs ih =>
    rw [List.tails_cons, List.findSome?_cons]
    by_cases hc : isSpace c = true
    · rw [here?_cons_of_isSpace hc, search?, search?, if_pos hc, if_pos hc]
      exact ⟨ih.1, fun _ _ _ => ih.1⟩
    · have hink : isInk c = true := by simpa [isInk] using hc
      rw [search?, search?, if_neg hc, if_neg hc, if_pos rfl]
      constructor
      · cases hhere : here? (c :: cs) with
        | none => exact ih.2 c hink hhere
        | some line => rfl
      · intro d hd hnone
        -- What does not begin at one character of a token does not begin at the next either.
        have hhere := here?_eq_none_of_cons hd hink hnone
        rw [hhere]
        exact ih.2 c hink hhere

theorem parse?_eq_head?_occurrences (s : String) : parse? s = (occurrences s.toList).head? := by
  rw [head?_occurrences]
  exact (search?_eq_findSome? s.toList).1

end TrafficMonitor.Log.RequestLine
