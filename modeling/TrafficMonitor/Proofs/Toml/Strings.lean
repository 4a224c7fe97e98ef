import TrafficMonitor.Proofs.Text.Tokens
import TrafficMonitor.Toml.Writer

namespace TrafficMonitor.Toml

section Escapes

def hexOf (c : Char) : List Char := [4096, 256, 16, 1].map fun place => hexDigit (c.toNat / place % 16)

theorem charOfHex?_hexOf {c : Char} (hc : c.toNat < 128) : charOfHex? (hexOf c) = some c := by
  have hall : ∀ n < 128, charOfHex? ([4096, 256, 16, 1].map fun place => hexDigit (n / place % 16)) =
      some (Char.ofNat n) := by
    decide +kernel
  rw [hexOf, hall _ hc, Char.ofNat_toNat]

theorem toNat_lt_of_not_isPlain {c : Char} (hc : isPlain c = false) : c.toNat < 128 := by
  simp only [isPlain, Bool.or_eq_false_iff, Bool.and_eq_false_iff, decide_eq_false_iff_not] at hc
  omega

structure Escapes (body : List Char) (c : Char) : Prop where
  escape (rest : List Char) : escape? (body ++ rest) = some (c, rest)
  not_continuation (rest : List Char) : continuation? (body ++ rest) = none

theorem escapes_hexOf {c : Char} (hc : c.toNat < 128) : Escapes ('u' :: hexOf c) c where
  escape rest := by
    have htake : (hexOf c ++ rest).take 4 = hexOf c := rfl
    have hdrop : (hexOf c ++ rest).drop 4 = rest := rfl
    have hlength : ¬(hexOf c ++ rest).length < 4 := by
      rw [List.length_append, hexOf, List.length_map]
      exact Nat.not_lt.2 (Nat.le_add_right _ _)
    rw [List.cons_append, escape?, if_neg hlength, htake, hdrop, charOfHex?_hexOf hc]
    rfl
  not_continuation _ := rfl

theorem escaped_cases (c : Char) : (∃ body, escaped c = '\\' :: body ∧ Escapes body c) ∨
    escaped c = [c] ∧ isPlain c = true ∧ c ≠ '\\' ∧ c ≠ '"' := by
  by_cases hnamed : c ∈ ['\x08', '\t', '\n', '\x0c', '\r', '\\']
  · left
    simp only [List.mem_cons, List.not_mem_nil, or_false] at hnamed
    rcases hnamed with rfl | rfl | rfl | rfl | rfl | rfl <;>
      exact ⟨[_], rfl, ⟨fun _ => rfl, fun _ => rfl⟩⟩
  · simp only [List.mem_cons, List.not_mem_nil, or_false, not_or] at hnamed
    obtain ⟨hb, ht, hn, hf, hr, hslash⟩ := hnamed
    have hescaped : escaped c = if c == '"' || !isPlain c then numbered c else [c] := by
      simp only [escaped, beq_iff_eq, hb, ht, hn, hf, hr, hslash, if_false]
    by_cases hnumbered : c = '"' ∨ isPlain c = false
    · refine .inl ⟨'u' :: hexOf c, ?_, escapes_hexOf ?_⟩
      · rw [hescaped, if_pos (by simpa using hnumbered)]
        rfl
      · rcases hnumbered with rfl | hplain
        · decide
        · exact toNat_lt_of_not_isPlain hplain
    · obtain ⟨hquote, hplain⟩ := not_or.1 hnumbered
      refine .inr ⟨?_, Bool.not_eq_false _ ▸ hplain, hslash, hquote⟩
      rw [hescaped, if_neg (by simpa using hnumbered)]

end Escapes

section OneLine

variable {cs rest : List Char}

theorem prepend_some (front cs rest : List Char) :
    prepend front (some (cs, rest)) = some (front ++ cs, rest) := rfl

theorem basicBody_flatMap_escaped {fuel : Nat} (hfuel : cs.length < fuel) :
    basicBody fuel (cs.flatMap escaped ++ '"' :: rest) = some (cs, rest) := by
  induction cs generalizing fuel with
  | nil =>
    obtain ⟨fuel, rfl⟩ := Nat.exists_eq_succ_of_ne_zero (Nat.ne_of_gt hfuel)
    rfl
  | cons c cs ih =>
    obtain ⟨fuel, rfl⟩ := Nat.exists_eq_succ_of_ne_zero (Nat.ne_of_gt (Nat.zero_lt_of_lt hfuel))
    have ih := ih (Nat.lt_of_succ_lt_succ hfuel)
    rw [List.flatMap_cons, List.append_assoc]
    rcases escaped_cases c with ⟨body, hescaped, hbody⟩ | ⟨hself, hplain, hslash, hquote⟩
    · rw [hescaped, List.cons_append, basicBody, hbody.escape]
      simp only
      rw [ih, prepend_some]
      rfl
    · rw [hself, List.singleton_append, basicBody, if_pos hplain, ih, prepend_some]
      · rfl
      · exact hquote
      · exact hslash

theorem length_le_flatMap_escaped (cs : List Char) : cs.length ≤ (cs.flatMap escaped).length := by
  induction cs with
  | nil => exact Nat.le_refl _
  | cons c cs ih =>
    have hone : 1 ≤ (escaped c).length := by
      rcases escaped_cases c with ⟨body, hescaped, -⟩ | ⟨hself, -⟩
      · rw [hescaped, List.length_cons]
        omega
      · rw [hself]
        exact Nat.le_refl 1
    rw [List.flatMap_cons, List.length_append, List.length_cons]
    omega

theorem literalBody_append (h : ∀ c ∈ cs, isPlain c = true ∧ c ≠ '\'') :
    literalBody (cs ++ '\'' :: rest) = some (cs, rest) := by
  have htrue : ∀ c ∈ cs, (isPlain c && c != '\'') = true := by
    intro c hc
    simpa using h c hc
  rw [literalBody, Text.span_append htrue (by decide)]
  rfl

end OneLine

section Quotes

variable {quote : Char} {escapes : Bool} {run : Nat} {cs more : List Char}

theorem takeWhile_quotes (h : more.head? ≠ some quote) :
    (List.replicate run quote ++ more).takeWhile (· == quote) = List.replicate run quote := by
  rw [List.takeWhile_append_of_pos fun c hc => beq_iff_eq.2 (List.eq_of_mem_replicate hc)]
  cases more with
  | nil => rw [List.takeWhile_nil, List.append_nil]
  | cons c more =>
    have hc : (c == quote) = false := beq_false_of_ne fun heq => h (congrArg some heq)
    rw [List.takeWhile_cons, hc]
    exact List.append_nil _

theorem drop_quotes (run : Nat) (quote : Char) (more : List Char) :
    (List.replicate run quote ++ more).drop run = more :=
  List.drop_left' List.length_replicate

theorem linesBody_quotes (escapes : Bool) {fuel : Nat} (hrun : run ≤ 2) (hmore : more.head? ≠ some quote)
    (hfuel : more.length + run ≤ fuel) : ∃ fuel', more.length ≤ fuel' ∧
      linesBody quote escapes fuel (List.replicate run quote ++ more) =
        prepend (List.replicate run quote) (linesBody quote escapes fuel' more) := by
  cases run with
  | zero =>
    refine ⟨fuel, hfuel, ?_⟩
    rw [List.replicate_zero, List.nil_append]
    cases linesBody quote escapes fuel more <;> rfl
  | succ run =>
    obtain ⟨fuel, rfl⟩ : ∃ k, fuel = k + 1 := ⟨fuel - 1, by omega⟩
    have hclosing : closing? quote (List.replicate (run + 1) quote ++ more) =
        (some (List.replicate (run + 1) quote), more) := by
      rw [closing?, takeWhile_quotes hmore, List.length_replicate]
      simp only
      rw [if_pos (by omega), drop_quotes]
    refine ⟨fuel, by omega, ?_⟩
    rw [List.replicate_succ, List.cons_append] at hclosing ⊢
    rw [linesBody, if_pos rfl, hclosing]

theorem linesBody_closing {fuel : Nat} (hrun : run ≤ 2) (hmore : more.head? ≠ some quote)
    (hfuel : 0 < fuel) : linesBody quote escapes fuel (List.replicate (run + 3) quote ++ more) =
      some (List.replicate run quote, more) := by
  obtain ⟨fuel, rfl⟩ := Nat.exists_eq_succ_of_ne_zero (Nat.ne_of_gt hfuel)
  have hclosing : closing? quote (List.replicate (run + 3) quote ++ more) =
      (none, List.replicate run quote) := by
    rw [closing?, takeWhile_quotes hmore, List.length_replicate]
    simp only
    rw [if_neg (by omega), show min (run + 3) 5 - 3 = run by omega]
  rw [List.replicate_succ, List.cons_append] at hclosing ⊢
  rw [linesBody, if_pos rfl, hclosing]
  simp only
  rw [← List.cons_append, ← List.replicate_succ, List.length_replicate, drop_quotes]

end Quotes

section SeveralLines

inductive Spelled (quote : Char) (escapes : Bool) : Nat → List Char → List Char → Prop
  | nil {run : Nat} : Spelled quote escapes run [] []
  | quote {run : Nat} {cs text : List Char} (hrun : run < 2)
      (rest : Spelled quote escapes (run + 1) cs text) :
      Spelled quote escapes run (quote :: cs) (quote :: text)
  | newline {run : Nat} {cs text : List Char} (rest : Spelled quote escapes 0 cs text) :
      Spelled quote escapes run ('\n' :: cs) ('\n' :: text)
  | plain {run : Nat} {c : Char} {cs text : List Char} (hplain : isPlain c = true) (hquote : c ≠ quote)
      (hslash : ¬(c = '\\' ∧ escapes = true)) (rest : Spelled quote escapes 0 cs text) :
      Spelled quote escapes run (c :: cs) (c :: text)
  | escaped {run : Nat} {c : Char} {body cs text : List Char} (hescapes : escapes = true)
      (hbody : Escapes body c) (rest : Spelled quote escapes 0 cs text) :
      Spelled quote escapes run (c :: cs) ('\\' :: (body ++ text))

variable {quote : Char} {escapes : Bool} {run : Nat} {cs text : List Char}

theorem ne_newline_of_isPlain {c : Char} (h : isPlain c = true) : c ≠ '\n' ∧ c ≠ '\r' := by
  constructor <;>
    rintro rfl <;>
    cases h

theorem newline?_eq_none {c : Char} (hn : c ≠ '\n') (hr : c ≠ '\r') (cs : List Char) :
    newline? (c :: cs) = none := by
  rw [newline?]
  · exact fun _ heq => hn (List.cons.inj heq).1
  · exact fun _ heq => hr (List.cons.inj heq).1

theorem linesBody_after_quotes {c d : Char} {spelling rest : List Char} {fuel : Nat}
    (after : List Char) (hrun : run ≤ 2) (hc : c ≠ quote) (hfuel : (c :: spelling).length + run ≤ fuel)
    (hstep : ∀ fuel, linesBody quote escapes (fuel + 1) (c :: spelling) =
      prepend [d] (linesBody quote escapes fuel after)) (hafter : after.length ≤ spelling.length)
    (hread : ∀ fuel, after.length ≤ fuel → linesBody quote escapes fuel after = some (cs, rest)) :
    linesBody quote escapes fuel (List.replicate run quote ++ c :: spelling) =
      some (List.replicate run quote ++ d :: cs, rest) := by
  obtain ⟨fuel', hfuel', hquotes⟩ := linesBody_quotes escapes hrun
    (show (c :: spelling).head? ≠ some quote from fun heq => hc (Option.some.inj heq)) hfuel
  rw [List.length_cons] at hfuel'
  obtain ⟨k, rfl⟩ : ∃ k, fuel' = k + 1 := ⟨fuel' - 1, by omega⟩
  rw [hquotes, hstep, hread k (by omega)]
  rfl

theorem Spelled.linesBody_eq (hmark : quote = '"' ∨ quote = '\'') (h : Spelled quote escapes run cs text)
    (hrun : run ≤ 2) {rest : List Char} (hrest : rest.head? ≠ some quote) {fuel : Nat}
    (hfuel : (text ++ (List.replicate 3 quote ++ rest)).length + run ≤ fuel) :
    linesBody quote escapes fuel (List.replicate run quote ++ (text ++ (List.replicate 3 quote ++ rest))) =
      some (List.replicate run quote ++ cs, rest) := by
  have hnewline : '\n' ≠ quote := by
    rcases hmark with rfl | rfl <;> decide
  have hslash : '\\' ≠ quote := by
    rcases hmark with rfl | rfl <;> decide
  induction h generalizing fuel with
  | nil =>
    rw [List.nil_append, ← List.append_assoc, List.replicate_append_replicate,
      linesBody_closing hrun hrest (by simp at hfuel; omega), List.append_nil]
  | @quote run cs text hlt _ ih =>
    have ih := @ih hlt fuel (by simp at hfuel ⊢; omega)
    rw [List.replicate_succ'] at ih
    simpa using ih
  | @newline run cs text _ ih =>
    refine linesBody_after_quotes _ hrun hnewline hfuel (fun fuel => ?_) (Nat.le_refl _)
      fun fuel hfuel => ih (Nat.zero_le 2) hfuel
    rw [linesBody, if_neg hnewline, newline?]
  | @plain run c cs text hplain hquote hnot _ ih =>
    refine linesBody_after_quotes _ hrun hquote hfuel (fun fuel => ?_) (Nat.le_refl _)
      fun fuel hfuel => ih (Nat.zero_le 2) hfuel
    obtain ⟨hn, hr⟩ := ne_newline_of_isPlain hplain
    rw [linesBody, if_neg hquote, newline?_eq_none hn hr]
    simp only
    rw [if_neg hnot, if_pos hplain]
  | @escaped run c body cs text hescapes hbody _ ih =>
    refine linesBody_after_quotes (text ++ (List.replicate 3 quote ++ rest)) hrun hslash hfuel
      (fun fuel => ?_) (by simp) fun fuel hfuel => ih (Nat.zero_le 2) hfuel
    rw [linesBody, if_neg hslash, newline?_eq_none (by decide) (by decide)]
    simp only
    rw [if_pos ⟨trivial, hescapes⟩, List.append_eq, List.append_assoc, hbody.not_continuation,
      hbody.escape]

theorem spelled_escapedLines (hrun : run ≤ 2) : Spelled '"' true run cs (escapedLines run cs) := by
  induction cs generalizing run with
  | nil => exact .nil
  | cons c cs ih =>
    rw [escapedLines]
    split
    case isTrue hquote =>
      subst hquote
      split
      case isTrue hlt => exact .quote hlt (ih hlt)
      case isFalse => exact .escaped rfl (escapes_hexOf (by decide)) (ih (Nat.zero_le 2))
    case isFalse hquote =>
      split
      case isTrue hnewline => exact hnewline ▸ .newline (ih (Nat.zero_le 2))
      case isFalse =>
        rcases escaped_cases c with ⟨body, hescaped, hbody⟩ | ⟨hself, hplain, hslash, -⟩
        · rw [hescaped]
          exact .escaped rfl hbody (ih (Nat.zero_le 2))
        · rw [hself]
          exact .plain hplain hquote (fun h => hslash h.1) (ih (Nat.zero_le 2))

def countRun (c : Char) (counts : Nat × Nat) (d : Char) : Nat × Nat :=
  let run := if d = c then counts.1 + 1 else 0
  (run, max run counts.2)

theorem countRun_self (c : Char) (counts : Nat × Nat) :
    countRun c counts c = (counts.1 + 1, max (counts.1 + 1) counts.2) := by
  rw [countRun, if_pos rfl]

theorem countRun_of_ne {c d : Char} (h : d ≠ c) (counts : Nat × Nat) :
    countRun c counts d = (0, max 0 counts.2) := by
  rw [countRun, if_neg h]

theorem longestRun_eq (c : Char) (cs : List Char) :
    longestRun c cs = (cs.foldl (countRun c) (0, 0)).2 := rfl

theorem snd_le_foldl_countRun (c : Char) (cs : List Char) (counts : Nat × Nat) :
    counts.2 ≤ (cs.foldl (countRun c) counts).2 := by
  induction cs generalizing counts with
  | nil => exact Nat.le_refl _
  | cons d cs ih => exact Nat.le_trans (Nat.le_max_right _ _) (ih (countRun c counts d))

theorem spelled_self (hcs : ∀ c ∈ cs, isPlain c = true ∨ c = '\n') {longest : Nat}
    (hlongest : (cs.foldl (countRun quote) (run, longest)).2 ≤ 2) :
    Spelled quote false run cs cs := by
  induction cs generalizing run longest with
  | nil => exact .nil
  | cons c cs ih =>
    obtain ⟨hc, hcs⟩ := List.forall_mem_cons.1 hcs
    by_cases hquote : c = quote
    · subst hquote
      rw [List.foldl_cons, countRun_self] at hlongest
      have hmax : max (run + 1) longest ≤ 2 :=
        Nat.le_trans (snd_le_foldl_countRun c cs (run + 1, max (run + 1) longest)) hlongest
      exact .quote (by omega) (ih hcs hlongest)
    · rw [List.foldl_cons, countRun_of_ne hquote] at hlongest
      have ih := ih hcs hlongest
      rcases hc with hplain | rfl
      · exact .plain hplain hquote (fun h => Bool.false_ne_true h.2) ih
      · exact .newline ih

theorem not_mem_of_longestRun_eq_zero {c : Char} (h : longestRun c cs = 0) : c ∉ cs := by
  intro hmem
  obtain ⟨before, after, rfl⟩ := List.append_of_mem hmem
  rw [longestRun_eq, List.foldl_append, List.foldl_cons] at h
  have hle := snd_le_foldl_countRun c after (countRun c (before.foldl (countRun c) (0, 0)) c)
  rw [h, countRun_self] at hle
  simp only at hle
  omega

theorem Spelled.dropNewline_eq (hmark : quote = '"' ∨ quote = '\'') (h : Spelled quote escapes run cs text)
    (hline : '\n' ∉ cs) (more : List Char) :
    dropNewline (text ++ quote :: more) = text ++ quote :: more := by
  have hquote : quote ≠ '\n' ∧ quote ≠ '\r' := by
    rcases hmark with rfl | rfl <;> decide
  have hnone : newline? (text ++ quote :: more) = none := by
    cases h with
    | nil => exact newline?_eq_none hquote.1 hquote.2 _
    | quote => exact newline?_eq_none hquote.1 hquote.2 _
    | newline => exact absurd List.mem_cons_self hline
    | plain hplain =>
      obtain ⟨hfeed, hreturn⟩ := ne_newline_of_isPlain hplain
      exact newline?_eq_none hfeed hreturn _
    | escaped => exact newline?_eq_none (by decide) (by decide) _
  rw [dropNewline, hnone]
  rfl

theorem linesBody_inTriples (hmark : quote = '"' ∨ quote = '\'') (h : Spelled quote escapes 0 cs text)
    {several : Bool} (hseveral : several = false → '\n' ∉ cs) {rest inner : List Char}
    (hrest : rest.head? ≠ some quote)
    (hinner : inTriples quote several text ++ rest = List.replicate 3 quote ++ inner) :
    linesBody quote escapes (inner.length + 1) (dropNewline inner) = some (cs, rest) := by
  rw [inTriples, List.append_assoc, List.append_assoc, List.append_assoc] at hinner
  obtain rfl := List.append_cancel_left hinner
  have hdrop : dropNewline ((if several then ['\n'] else []) ++ (text ++ (List.replicate 3 quote ++ rest))) =
      text ++ (List.replicate 3 quote ++ rest) := by
    cases several with
    | true => rfl
    | false => exact h.dropNewline_eq hmark (hseveral rfl) _
  rw [hdrop]
  refine h.linesBody_eq hmark (Nat.zero_le 2) hrest ?_
  have hlength := @List.length_append _ (if several then ['\n'] else [])
    (text ++ (List.replicate 3 quote ++ rest))
  omega

end SeveralLines

section Strings

variable {cs rest : List Char}

theorem string?_basic (cs rest : List Char) :
    string? ('"' :: cs.flatMap escaped ++ ['"'] ++ '\n' :: rest) = some (cs, '\n' :: rest) := by
  have hbody : basicBody ((cs.flatMap escaped ++ '"' :: '\n' :: rest).length + 1)
      (cs.flatMap escaped ++ '"' :: '\n' :: rest) = some (cs, '\n' :: rest) := by
    refine basicBody_flatMap_escaped ?_
    have hle := length_le_flatMap_escaped cs
    rw [List.length_append]
    omega
  have hshape : '"' :: cs.flatMap escaped ++ ['"'] ++ '\n' :: rest =
      '"' :: (cs.flatMap escaped ++ '"' :: '\n' :: rest) := by simp
  rw [hshape]
  cases cs with
  | nil => rfl
  | cons c cs =>
    rw [string?]
    · exact hbody
    · intro tail heq
      rw [List.flatMap_cons, List.append_assoc] at heq
      rcases escaped_cases c with ⟨body, hescaped, -⟩ | ⟨hself, -, -, hquote⟩
      · rw [hescaped] at heq
        cases (List.cons.inj (List.cons.inj heq).2).1
      · rw [hself] at heq
        exact hquote (List.cons.inj (List.cons.inj heq).2).1
    · rintro tail ⟨⟩

theorem string?_literal (h : ∀ c ∈ cs, isPlain c = true ∧ c ≠ '\'') :
    string? ('\'' :: cs ++ ['\''] ++ '\n' :: rest) = some (cs, '\n' :: rest) := by
  have hshape : '\'' :: cs ++ ['\''] ++ '\n' :: rest = '\'' :: (cs ++ '\'' :: '\n' :: rest) := by simp
  rw [hshape]
  cases cs with
  | nil => rfl
  | cons c cs =>
    rw [string?]
    · exact literalBody_append h
    · rintro tail ⟨⟩
    · intro tail heq
      exact (h c List.mem_cons_self).2 (List.cons.inj (List.cons.inj heq).2).1

theorem string?_escapedLines {several : Bool} (hseveral : several = false → '\n' ∉ cs) :
    string? (inTriples '"' several (escapedLines 0 cs) ++ '\n' :: rest) = some (cs, '\n' :: rest) :=
  linesBody_inTriples (.inl rfl) (spelled_escapedLines (Nat.zero_le 2)) hseveral (by simp) rfl

theorem string?_literalLines {several : Bool} (hseveral : several = false → '\n' ∉ cs)
    (hcs : ∀ c ∈ cs, isPlain c = true ∨ c = '\n') (hsingles : longestRun '\'' cs ≤ 2) :
    string? (inTriples '\'' several cs ++ '\n' :: rest) = some (cs, '\n' :: rest) :=
  linesBody_inTriples (.inr rfl) (spelled_self hcs hsingles) hseveral (by simp) rfl

theorem string?_stringChars (cs rest : List Char) :
    string? (stringChars cs ++ '\n' :: rest) = some (cs, '\n' :: rest) := by
  have hseveral : cs.contains '\n' = false → '\n' ∉ cs := by
    intro hnone hmem
    rw [← List.contains_iff_mem, hnone] at hmem
    cases hmem
  have hcontrol (h : (cs.any fun c => !isPlain c && c != '\n') = false) :
      ∀ c ∈ cs, isPlain c = true ∨ c = '\n' := by
    intro c hc
    have := List.any_eq_false.1 h c hc
    by_cases hn : c = '\n'
    · exact .inr hn
    · exact .inl (by simpa [hn] using this)
  rw [stringChars]
  split
  case isTrue => exact string?_basic cs rest
  case isFalse =>
    split
    case isTrue h =>
      simp only [Bool.and_eq_true, Bool.not_eq_true', decide_eq_true_eq] at h
      obtain ⟨⟨hplain, hsingles⟩, hone⟩ := h
      refine string?_literal fun c hc => ⟨?_, ?_⟩
      · exact (hcontrol hplain c hc).resolve_right fun heq => hseveral hone (heq ▸ hc)
      · exact fun heq => not_mem_of_longestRun_eq_zero hsingles (heq ▸ hc)
    case isFalse =>
      split
      case isTrue => exact string?_escapedLines hseveral
      case isFalse =>
        split
        case isTrue h =>
          simp only [Bool.and_eq_true, Bool.not_eq_true', decide_eq_true_eq] at h
          exact string?_literalLines hseveral (hcontrol h.1) h.2
        case isFalse =>
          split
          case isTrue => exact string?_escapedLines (fun h => absurd h (by decide))
          case isFalse => exact string?_basic cs rest

end Strings

end TrafficMonitor.Toml
