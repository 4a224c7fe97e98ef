import TrafficMonitor.Proofs.Decimal.Spelling
import TrafficMonitor.Toml.Number
import TrafficMonitor.Toml.Writer

namespace TrafficMonitor.Toml

open Document Decimal Text

section Classes

variable {p : Char → Bool} {c d : Char}

theorem ne_of_class (hc : p c = true) (hd : p d = false) : c ≠ d := by
  rintro rfl
  rw [hc] at hd
  cases hd

theorem cons_ne_cons (hc : p c = true) (hd : p d = false) (cs ds : List Char) : c :: cs ≠ d :: ds :=
  fun heq => ne_of_class hc hd (List.cons.inj heq).1

end Classes

section Runs

variable {ds : List Char} {c : Char} {rest : List Char}

theorem digitRun_append (hds : ∀ d ∈ ds, d.isDigit = true) (hc : c.isDigit = false) (hscore : c ≠ '_') :
    digitRun Char.isDigit (ds ++ c :: rest) = (ds, c :: rest) := by
  induction ds with
  | nil =>
    rw [List.nil_append, digitRun, if_neg (by simp [hc]), if_neg (by simp [hscore])]
  | cons d ds ih =>
    obtain ⟨hd, hds⟩ := List.forall_mem_cons.1 hds
    rw [List.cons_append, digitRun, if_pos hd, ih hds]

theorem digits?_append (hds : ∀ d ∈ ds, d.isDigit = true) (hne : ds ≠ []) (hc : c.isDigit = false)
    (hscore : c ≠ '_') (rest : List Char) :
    digits? Char.isDigit (ds ++ c :: rest) = some (ds, c :: rest) := by
  obtain ⟨d, ds, rfl⟩ := List.exists_cons_of_ne_nil hne
  have hd : d.isDigit = true := hds d List.mem_cons_self
  rw [digits?, digitRun_append hds hc hscore, if_pos]
  exact hd

theorem exists_cons_of_unpadded (h : Literal.Unpadded ds) : ∃ d es, ds = d :: es ∧ d.isDigit = true := by
  have hne : ds ≠ [] := by
    rcases h.leading with rfl | ⟨hne, -⟩
    · exact List.cons_ne_nil _ _
    · exact hne
  obtain ⟨d, es, rfl⟩ := List.exists_cons_of_ne_nil hne
  exact ⟨d, es, rfl, h.digits d List.mem_cons_self⟩

theorem wholePart?_append (h : Literal.Unpadded ds) (hc : c.isDigit = false) (hscore : c ≠ '_')
    (rest : List Char) : wholePart? (ds ++ c :: rest) = some (ds, c :: rest) := by
  rcases h.leading with rfl | ⟨hne, hhead⟩
  · rfl
  · obtain ⟨d, es, rfl⟩ := List.exists_cons_of_ne_nil hne
    have hd : d ≠ '0' := fun heq => hhead (congrArg some heq)
    rw [List.cons_append, wholePart?]
    · exact digits?_append h.digits hne hc hscore rest
    · rintro cs heq
      exact hd (List.cons.inj heq).1

end Runs

section Moments

variable {ds : List Char} {c : Char} {rest : List Char}

theorem field?_append {width low high n : Nat} {left : List Char} (hds : ∀ d ∈ ds, d.isDigit = true)
    (hc : c.isDigit = false) (h : field? width low high (ds ++ c :: rest) = some (n, left)) :
    ∃ es, (∀ d ∈ es, d.isDigit = true) ∧ left = es ++ c :: rest := by
  rw [field?] at h
  split at h
  case isTrue hfield =>
    obtain ⟨-, rfl⟩ := Prod.mk.inj (Option.some.inj h)
    have hwidth : width ≤ ds.length := by
      by_contra hlt
      have hmem : c ∈ (ds ++ c :: rest).take width := by
        rw [List.take_append]
        obtain ⟨k, hk⟩ : ∃ k, width - ds.length = k + 1 := ⟨width - ds.length - 1, by omega⟩
        rw [hk, List.take_succ_cons]
        exact List.mem_append_right _ List.mem_cons_self
      have hdigit := List.all_eq_true.1 hfield.2.1 c hmem
      rw [hc] at hdigit
      cases hdigit
    exact ⟨ds.drop width, fun d hd => hds d (List.mem_of_mem_drop hd),
      List.drop_append_of_le_length hwidth⟩
  case isFalse => cases h

theorem skip?_append {mark : Char} (hds : ∀ d ∈ ds, d.isDigit = true) (hmark : mark.isDigit = false)
    (hc : c ≠ mark) : skip? mark (ds ++ c :: rest) = none := by
  cases ds with
  | nil => exact if_neg hc
  | cons d ds =>
    refine if_neg fun heq => ?_
    rw [← heq, hds d List.mem_cons_self] at hmark
    cases hmark

theorem afterDate?_append (hds : ∀ d ∈ ds, d.isDigit = true) (hc : c.isDigit = false)
    (hdash : c ≠ '-') : afterDate? (ds ++ c :: rest) = none := by
  rw [afterDate?]
  cases hyear : field? 4 0 9999 (ds ++ c :: rest) with
  | none => rfl
  | some read =>
    obtain ⟨es, hes, hleft⟩ := field?_append hds hc hyear
    change (skip? '-' read.2).bind _ = none
    rw [hleft, skip?_append hes rfl hdash]
    rfl

theorem afterTime?_append (hds : ∀ d ∈ ds, d.isDigit = true) (hc : c.isDigit = false)
    (hcolon : c ≠ ':') : afterTime? (ds ++ c :: rest) = none := by
  rw [afterTime?]
  cases hhour : field? 2 0 23 (ds ++ c :: rest) with
  | none => rfl
  | some read =>
    obtain ⟨es, hes, hleft⟩ := field?_append hds hc hhour
    change (skip? ':' read.2).bind _ = none
    rw [hleft, skip?_append hes rfl hcolon]
    rfl

theorem moment?_append (hds : ∀ d ∈ ds, d.isDigit = true) (hc : c.isDigit = false)
    (hdash : c ≠ '-') (hcolon : c ≠ ':') : moment? (ds ++ c :: rest) = none := by
  rw [moment?, afterMoment?, afterDate?_append hds hc hdash]
  simp only
  rw [afterTime?_append hds hc hcolon]
  rfl

end Moments

section Signs

variable {ds : List Char} {c : Char} {rest : List Char}

def signChars (negative : Bool) : List Char := if negative then ['-'] else []

theorem field?_minus {width : Nat} (hwidth : 0 < width) (low high : Nat) (cs : List Char) :
    field? width low high ('-' :: cs) = none := by
  obtain ⟨k, rfl⟩ := Nat.exists_eq_add_of_lt hwidth
  refine if_neg fun hfield => ?_
  have hdigit := List.all_eq_true.1 hfield.2.1 '-' (by simp)
  cases hdigit

theorem moment?_signed (negative : Bool) (hds : ∀ d ∈ ds, d.isDigit = true) (hc : c.isDigit = false)
    (hdash : c ≠ '-') (hcolon : c ≠ ':') : moment? (signChars negative ++ (ds ++ c :: rest)) = none := by
  cases negative with
  | false => exact moment?_append hds hc hdash hcolon
  | true =>
    have hyear := field?_minus (show 0 < 4 by decide) 0 9999 (ds ++ c :: rest)
    have hhour := field?_minus (show 0 < 2 by decide) 0 23 (ds ++ c :: rest)
    change (afterMoment? ('-' :: (ds ++ c :: rest))).map _ = none
    rw [afterMoment?, afterDate?, afterTime?, hyear, hhour]
    rfl

theorem splitSign_signed (negative : Bool) (h : Literal.Unpadded ds) (cs : List Char) :
    Literal.splitSign (signChars negative ++ (ds ++ cs)) = (negative, ds ++ cs) := by
  obtain ⟨d, es, rfl, hd⟩ := exists_cons_of_unpadded h
  cases negative with
  | true => rfl
  | false =>
    rw [signChars, if_neg Bool.false_ne_true, List.nil_append, List.cons_append, Literal.splitSign]
    · exact cons_ne_cons hd rfl _
    · exact cons_ne_cons hd rfl _

theorem special?_signed (negative : Bool) (h : Literal.Unpadded ds) (cs : List Char) :
    special? (signChars negative ++ (ds ++ cs)) = none := by
  have hsign := splitSign_signed negative h cs
  obtain ⟨d, es, rfl, hd⟩ := exists_cons_of_unpadded h
  rw [special?, hsign]
  split
  case h_1 heq => exact absurd (Prod.mk.inj heq).2 (cons_ne_cons hd rfl _ _)
  case h_2 heq => exact absurd (Prod.mk.inj heq).2 (cons_ne_cons hd rfl _ _)
  case h_3 => rfl

theorem decimal?_signed (negative : Bool) {whole fraction : List Char} {r : ℚ}
    (hs : Literal.Spells whole fraction r) : decimal? (signChars negative ++ (whole ++ '.' ::
      (fraction ++ '\n' :: rest))) = some (Literal.nearest negative whole fraction 0, '\n' :: rest) := by
  have hread := wholePart?_append hs.unpadded (show '.'.isDigit = false by rfl) (by decide)
    (fraction ++ '\n' :: rest)
  have hfraction := digits?_append hs.fraction_digits hs.fraction_ne
    (show '\n'.isDigit = false by rfl) (by decide) rest
  rw [decimal?, splitSign_signed negative hs.unpadded]
  simp only [hread, Option.bind_eq_bind, Option.bind_some, fraction?, hfraction]
  rfl

theorem decimal?_whole (negative : Bool) (h : Literal.Unpadded ds) :
    decimal? (signChars negative ++ (ds ++ '\n' :: rest)) = none := by
  have hread := wholePart?_append h (show '\n'.isDigit = false by rfl) (by decide) rest
  rw [decimal?, splitSign_signed negative h]
  simp only [hread]
  rfl

theorem signed_ne_prefixed (negative : Bool) (hds : ∀ d ∈ ds, d.isDigit = true) {mark : Char}
    (hmark : mark.isDigit = false) (hend : '\n' ≠ mark) (cs : List Char) :
    signChars negative ++ (ds ++ '\n' :: rest) ≠ '0' :: mark :: cs := by
  intro heq
  cases negative with
  | true => cases (List.cons.inj heq).1
  | false =>
    cases ds with
    | nil => cases (List.cons.inj heq).1
    | cons d es =>
      have htail : es ++ '\n' :: rest = mark :: cs := (List.cons.inj heq).2
      cases es with
      | nil => exact hend (List.cons.inj htail).1
      | cons e es =>
        have hdigit : e.isDigit = true := hds e (by simp)
        rw [(List.cons.inj htail).1, hmark] at hdigit
        cases hdigit

theorem anyWhole?_signed (negative : Bool) (h : Literal.Unpadded ds) :
    anyWhole? (signChars negative ++ (ds ++ '\n' :: rest)) =
      some (if negative then -(Numeral.value ds : Int) else Numeral.value ds, '\n' :: rest) := by
  have hread := wholePart?_append h (show '\n'.isDigit = false by rfl) (by decide) rest
  rw [anyWhole?, splitSign_signed negative h]
  · simp only [hread]
    rfl
  all_goals exact signed_ne_prefixed negative h.digits rfl (by decide)

end Signs

section Numbers

variable {rest : List Char}

theorem toList_signed (negative : Bool) (text : String) :
    (Fixed.signed negative text).toList = signChars negative ++ text.toList := by
  cases negative with
  | false => rfl
  | true => simp [Fixed.signed, signChars]

theorem toList_pointed {text : String} {negative : Bool} {whole : List Char}
    (kept : List Char) (hwhole : ∀ d ∈ whole, d.isDigit = true)
    (h : text.toList = signChars negative ++ (whole ++ if kept.isEmpty then [] else '.' :: kept)) :
    (if text.toList.contains '.' then text else text ++ ".0").toList =
      signChars negative ++ (whole ++ '.' :: if kept.isEmpty then ['0'] else kept) := by
  cases kept with
  | nil =>
    have hpoint : text.toList.contains '.' = false := by
      rw [← Bool.not_eq_true, List.contains_iff_mem, h]
      intro hmem
      rcases List.mem_append.1 hmem with hmem | hmem
      · cases negative <;> simp [signChars] at hmem
      · have hdigit := hwhole '.' (by simpa using hmem)
        cases hdigit
    rw [if_neg (by rw [hpoint]; decide), String.toList_append, h]
    simp
  | cons k kept =>
    have hpoint : text.toList.contains '.' = true := by
      rw [List.contains_iff_mem, h]
      simp
    rw [if_pos hpoint, h]
    rfl

theorem exists_realText {x : Float} {negative : Bool} {m : Nat} {e : Int}
    (hparts : Binary64.parts x = .finite negative m e) : ∃ whole fraction r,
      (realText x).toList = signChars negative ++ (whole ++ '.' :: fraction) ∧
        Literal.Spells whole fraction r ∧ Literal.nearest negative whole fraction 0 = x := by
  rw [realText, hparts]
  simp only
  rw [Shortest.render, hparts]
  simp only
  by_cases hm : m = 0
  · subst hm
    have hzero : Literal.Unpadded ['0'] := ⟨by simp, .inl rfl⟩
    refine ⟨['0'], ['0'], 0, ?_, ⟨hzero, by simp, List.cons_ne_nil _ _, ?_⟩, ?_⟩
    · refine toList_pointed [] hzero.digits ?_
      rw [toList_signed, if_pos rfl]
      rfl
    · have hvalue : Numeral.value (['0'] ++ ['0']) = 0 := rfl
      rw [hvalue, Nat.cast_zero, zero_div]
    · exact Binary64.nearest_zero hparts
  · have hpos := Nat.pos_of_ne_zero hm
    have hcanonical := Binary64.canonical_parts hparts
    have hcontains := Shortest.contains_shortest hcanonical hpos
    have hdigits : (Shortest.shortest m e).digits ≠ 0 := by
      intro hzero
      have hlow := (bounds_of_contains hcanonical hpos hcontains).1
      rw [Shortest.Scientific.value, hzero, Nat.cast_zero, zero_mul] at hlow
      exact absurd hlow (not_le.2 (by positivity))
    obtain ⟨whole, kept, hspells, htext⟩ := exists_text hdigits
    refine ⟨whole, _, _, ?_, hspells, hspells.nearest_eq hparts hpos hcontains⟩
    refine toList_pointed kept hspells.unpadded.digits ?_
    rw [toList_signed, if_neg hm, htext]

theorem scalar?_signed (negative : Bool) {ds : List Char} (h : Literal.Unpadded ds) (cs : List Char) :
    scalar? (signChars negative ++ (ds ++ cs)) = number? (signChars negative ++ (ds ++ cs)) := by
  obtain ⟨d, es, rfl, hd⟩ := exists_cons_of_unpadded h
  cases negative with
  | true => rfl
  | false =>
    change scalar? (d :: (es ++ cs)) = number? (d :: (es ++ cs))
    rw [scalar?]
    all_goals exact fun _ => cons_ne_cons hd rfl _ _

theorem scalar?_finite {x : Float} {negative : Bool} {m : Nat} {e : Int}
    (hparts : Binary64.parts x = .finite negative m e) :
    scalar? ((realText x).toList ++ '\n' :: rest) = some (.real x, '\n' :: rest) := by
  obtain ⟨whole, fraction, r, htext, hspells, hnearest⟩ := exists_realText hparts
  have hshape : (realText x).toList ++ '\n' :: rest =
      signChars negative ++ (whole ++ '.' :: (fraction ++ '\n' :: rest)) := by
    rw [htext]
    simp
  have hoverflows : overflows x = false := by
    rw [overflows, hparts]
    rfl
  rw [hshape, scalar?_signed negative hspells.unpadded, number?,
    moment?_signed negative hspells.unpadded.digits rfl (by decide) (by decide),
    decimal?_signed negative hspells, hnearest]
  simp only [hoverflows, Bool.false_eq_true, if_false]

theorem scalar?_real (x : Float) :
    scalar? ((realText x).toList ++ '\n' :: rest) = some (.real x, '\n' :: rest) := by
  cases hparts : Binary64.parts x with
  | nan =>
    have hread : scalar? ("nan".toList ++ '\n' :: rest) = some (.real (0.0 / 0.0), '\n' :: rest) := rfl
    rw [realText, hparts, Binary64.eq_of_parts_nan hparts]
    exact hread
  | infinite negative =>
    have hread : scalar? ((if negative then "-inf" else "inf").toList ++ '\n' :: rest) =
        some (.real (Binary64.nearest negative (2 ^ 1024) 1), '\n' :: rest) := by
      cases negative <;> rfl
    rw [realText, hparts]
    rw [Binary64.nearest_infinite hparts] at hread
    exact hread
  | finite negative m e => exact scalar?_finite hparts

theorem unpadded_toDigits (n : Nat) : Literal.Unpadded (Nat.toDigits 10 n) where
  digits d hd := Nat.isDigit_of_mem_toDigits (by decide) (by decide) hd
  leading := by
    by_cases hn : n = 0
    · exact .inl (hn ▸ Nat.toDigits_zero 10)
    · exact .inr ⟨Nat.toDigits_ne_nil, head?_toDigits_ne hn⟩

theorem toList_toString (n : Int) :
    (toString n).toList = signChars (decide (n < 0)) ++ Nat.toDigits 10 n.natAbs := by
  cases n with
  | ofNat n => exact Nat.toList_repr
  | negSucc n => simp [toString, Int.repr, signChars]

theorem scalar?_whole {n : Int} (h : -2 ^ 63 ≤ n ∧ n < 2 ^ 63) :
    scalar? ((toString n).toList ++ '\n' :: rest) = some (.whole n, '\n' :: rest) := by
  have hdigits := unpadded_toDigits n.natAbs
  have hvalue : (if decide (n < 0) then -(Numeral.value (Nat.toDigits 10 n.natAbs) : Int)
      else Numeral.value (Nat.toDigits 10 n.natAbs)) = n := by
    rw [Numeral.value_toDigits]
    by_cases hneg : n < 0
    · rw [if_pos (decide_eq_true hneg)]
      omega
    · rw [if_neg (by simpa using hneg)]
      omega
  rw [toList_toString, List.append_assoc, scalar?_signed _ hdigits, number?,
    moment?_signed _ hdigits.digits rfl (by decide) (by decide), decimal?_whole _ hdigits]
  simp only [special?_signed _ hdigits]
  rw [whole?, anyWhole?_signed _ hdigits, hvalue, Option.filter_some, if_pos (by simpa using h)]
  rfl

end Numbers

end TrafficMonitor.Toml
