import TrafficMonitor.Proofs.Toml.Numbers
import TrafficMonitor.Proofs.Toml.Strings
import TrafficMonitor.Toml.Document

namespace TrafficMonitor.Toml

open Document Decimal

section Scalars

variable {v : Scalar} {text : String}

def Plain : Scalar → Prop
  | .moment _ => False
  | _ => True

def isOpening (c : Char) : Bool := c != '[' && c != '\x7b' && !isBlank c

theorem exists_cons_stringChars (cs : List Char) : ∃ c rest, stringChars cs = c :: rest ∧
    (c = '"' ∨ c = '\'') := by
  rw [stringChars]
  split
  · exact ⟨_, _, rfl, .inl rfl⟩
  · split
    · exact ⟨_, _, rfl, .inr rfl⟩
    · split
      · exact ⟨_, _, rfl, .inl rfl⟩
      · split
        · exact ⟨_, _, rfl, .inr rfl⟩
        · split
          · exact ⟨_, _, rfl, .inl rfl⟩
          · exact ⟨_, _, rfl, .inl rfl⟩

theorem isOpening_of_isDigit {c : Char} (h : c.isDigit = true) : isOpening c = true := by
  rw [isOpening, isBlank]
  simp only [Bool.and_eq_true, bne_iff_ne, ne_eq, Bool.not_eq_true', Bool.or_eq_false_iff,
    beq_eq_false_iff_ne]
  refine ⟨⟨?_, ?_⟩, ?_, ?_⟩ <;>
    rintro rfl <;>
    cases h

theorem exists_cons_signed (negative : Bool) {ds : List Char} (h : Literal.Unpadded ds)
    (cs : List Char) : ∃ c rest, signChars negative ++ (ds ++ cs) = c :: rest ∧ isOpening c = true := by
  obtain ⟨d, es, rfl, hd⟩ := exists_cons_of_unpadded h
  cases negative with
  | true => exact ⟨'-', _, rfl, rfl⟩
  | false => exact ⟨d, _, rfl, isOpening_of_isDigit hd⟩

theorem exists_cons_realText (x : Float) :
    ∃ c rest, (realText x).toList = c :: rest ∧ isOpening c = true := by
  cases hparts : Binary64.parts x with
  | nan =>
    rw [realText, hparts]
    exact ⟨'n', ['a', 'n'], by simp, rfl⟩
  | infinite negative =>
    rw [realText, hparts]
    cases negative with
    | true => exact ⟨'-', ['i', 'n', 'f'], by simp, rfl⟩
    | false => exact ⟨'i', ['n', 'f'], by simp, rfl⟩
  | finite negative m e =>
    obtain ⟨whole, fraction, r, htext, hspells, -⟩ := exists_realText hparts
    rw [htext]
    exact exists_cons_signed negative hspells.unpadded _

theorem exists_cons_scalarText (hv : Plain v) (h : scalarText? v = some text) :
    ∃ c rest, text.toList = c :: rest ∧ isOpening c = true := by
  cases v with
  | text s =>
    obtain rfl := Option.some.inj h
    obtain ⟨c, rest, heq, hc⟩ := exists_cons_stringChars s.toList
    refine ⟨c, rest, (String.toList_ofList).trans heq, ?_⟩
    rcases hc with rfl | rfl <;> rfl
  | whole n =>
    rw [scalarText?] at h
    split at h
    case isTrue =>
      obtain rfl := Option.some.inj h
      have hcons := exists_cons_signed (decide (n < 0)) (unpadded_toDigits n.natAbs) []
      rwa [List.append_nil, ← toList_toString] at hcons
    case isFalse => cases h
  | real x =>
    obtain rfl := Option.some.inj h
    exact exists_cons_realText x
  | flag b =>
    obtain rfl := Option.some.inj h
    cases b with
    | true => exact ⟨'t', _, rfl, rfl⟩
    | false => exact ⟨'f', _, rfl, rfl⟩
  | moment written => cases hv

theorem scalar?_scalarText (hv : Plain v) (h : scalarText? v = some text) (rest : List Char) :
    scalar? (text.toList ++ '\n' :: rest) = some (v, '\n' :: rest) := by
  cases v with
  | text s =>
    obtain rfl := Option.some.inj h
    have hread := string?_stringChars s.toList rest
    obtain ⟨c, cs, heq, hc⟩ := exists_cons_stringChars s.toList
    have hstring : scalar? (stringChars s.toList ++ '\n' :: rest) =
        (string? (stringChars s.toList ++ '\n' :: rest)).map fun read =>
          (.text (.ofList read.1), read.2) := by
      rw [heq]
      rcases hc with rfl | rfl <;> rfl
    rw [String.toList_ofList, hstring, hread, Option.map_some]
    simp only [String.ofList_toList]
  | whole n =>
    rw [scalarText?] at h
    split at h
    case isTrue hrange =>
      obtain rfl := Option.some.inj h
      exact scalar?_whole hrange
    case isFalse => cases h
  | real x =>
    obtain rfl := Option.some.inj h
    exact scalar?_real x
  | flag b =>
    obtain rfl := Option.some.inj h
    cases b <;> rfl
  | moment written => cases hv

theorem value?_scalarText (hv : Plain v) (h : scalarText? v = some text) (rest : List Char) :
    value? maxDepth (text.toList ++ '\n' :: rest) = some (.scalar v, '\n' :: rest) := by
  have hread := scalar?_scalarText hv h rest
  obtain ⟨c, cs, heq, hc⟩ := exists_cons_scalarText hv h
  rw [heq, List.cons_append] at hread ⊢
  rw [maxDepth, value?, hread]
  · rfl
  · exact cons_ne_cons hc rfl _
  · exact cons_ne_cons hc rfl _

end Scalars

section Keys

variable {key : List Char}

structure Bare (key : List Char) : Prop where
  isBare : ∀ c ∈ key, isBare c = true
  ne_nil : key ≠ []

theorem Bare.exists_cons (h : Bare key) : ∃ c cs, key = c :: cs ∧ Toml.isBare c = true := by
  obtain ⟨c, cs, rfl⟩ := List.exists_cons_of_ne_nil h.ne_nil
  exact ⟨c, cs, rfl, h.isBare c List.mem_cons_self⟩

theorem isBlank_eq_false_of_isBare {c : Char} (hc : Toml.isBare c = true) : isBlank c = false := by
  have hspace := ne_of_class (d := ' ') hc rfl
  have htab := ne_of_class (d := '\t') hc rfl
  simp [isBlank, hspace, htab]

theorem simpleKey?_append (h : Bare key) (more : List Char) :
    simpleKey? (key ++ ' ' :: more) = some (.ofList key, ' ' :: more) := by
  have hspan := Text.span_append h.isBare (show Toml.isBare ' ' = false by rfl) more
  obtain ⟨c, cs, rfl, hc⟩ := h.exists_cons
  have hdouble := ne_of_class (d := '"') hc rfl
  have hsingle := ne_of_class (d := '\'') hc rfl
  rw [List.cons_append] at hspan ⊢
  rw [simpleKey?, if_neg (by simp [hdouble, hsingle]), hspan]

theorem key?_append (h : Bare key) (more : List Char) :
    key? (key ++ ' ' :: '=' :: more) = some ([.ofList key], '=' :: more) := by
  have hkey := simpleKey?_append h ('=' :: more)
  obtain ⟨c, cs, rfl, hc⟩ := h.exists_cons
  have hdrop : (c :: cs ++ ' ' :: '=' :: more).dropWhile isBlank = c :: cs ++ ' ' :: '=' :: more := by
    rw [List.cons_append, List.dropWhile_cons_of_neg (by simp [isBlank_eq_false_of_isBare hc])]
  rw [key?, dottedKey?, hdrop, hkey]
  rfl

theorem entry?_append {item : Reader Value} {value : Value} {opening : Char} {text rest : List Char}
    (h : Bare key) (hopening : isOpening opening = true)
    (hitem : item (opening :: text) = some (value, '\n' :: rest)) :
    entry? item (key ++ ' ' :: '=' :: ' ' :: opening :: text) =
      some (([.ofList key], value), '\n' :: rest) := by
  have hblank : isBlank opening = false := by
    simp only [isOpening, Bool.and_eq_true, Bool.not_eq_true'] at hopening
    exact hopening.2
  have hdrop : (' ' :: opening :: text).dropWhile isBlank = opening :: text := by
    rw [List.dropWhile_cons_of_pos rfl, List.dropWhile_cons_of_neg (by simp [hblank])]
  have hskip : skip? '=' ('=' :: ' ' :: opening :: text) = some (' ' :: opening :: text) := rfl
  rw [ entry?, key?_append h]
  simp only [Option.bind_eq_bind, Option.bind_some, hskip, hdrop, hitem]
  rfl

end Keys

section Lines

variable {entries done : List (String × Scalar)}

def flatTable (entries : List (String × Scalar)) : Node :=
  .branch false false (entries.map fun entry => (entry.1, .leaf (.scalar entry.2)))

theorem value_flatTable (entries : List (String × Scalar)) :
    (flatTable entries).value = .table (entries.map fun entry => (entry.1, .scalar entry.2)) := by
  have hentries : Node.entryValues (entries.map fun entry => (entry.1, .leaf (.scalar entry.2))) =
      entries.map fun entry => (entry.1, .scalar entry.2) := by
    induction entries with
    | nil => rfl
    | cons entry entries ih =>
      rw [List.map_cons, List.map_cons, Node.entryValues, ih, Node.value]
  rw [flatTable, Node.value, hentries]

theorem addEntry_flatTable {key : String} {v : Scalar} (h : key ∉ done.map Prod.fst) :
    addEntry [key] (.scalar v) (flatTable done) = some (flatTable (done ++ [(key, v)])) := by
  have hlookup : (done.map fun entry => (entry.1, Node.leaf (.scalar entry.2))).lookup key = none := by
    rw [List.lookup_eq_none_iff]
    intro entry hentry
    obtain ⟨e, he, rfl⟩ := List.mem_map.1 hentry
    rw [bne_iff_ne]
    rintro rfl
    exact h (List.mem_map_of_mem he)
  change addLeaf false key (.scalar v) (flatTable done) = _
  rw [flatTable, addLeaf, hlookup, flatTable, List.map_append]
  rfl

theorem line?_append {key text : String} {v : Scalar} (hkey : Bare key.toList) (hv : Plain v)
    (htext : scalarText? v = some text) (hnew : key ∉ done.map Prod.fst) (rest : List Char) :
    line? ⟨flatTable done, []⟩ (key.toList ++ " = ".toList ++ text.toList ++ '\n' :: rest) =
      some (⟨flatTable (done ++ [(key, v)]), []⟩, rest) := by
  obtain ⟨opening, tail, hopen, hopening⟩ := exists_cons_scalarText hv htext
  have hvalue := value?_scalarText hv htext rest
  rw [hopen, List.cons_append] at hvalue
  have hentry := entry?_append hkey hopening hvalue
  have hshape : key.toList ++ " = ".toList ++ text.toList ++ '\n' :: rest =
      key.toList ++ ' ' :: '=' :: ' ' :: opening :: (tail ++ '\n' :: rest) := by
    rw [hopen]
    simp
  have hadd : within false (addEntry [.ofList key.toList] (.scalar v)) [] (flatTable done) =
      some (flatTable (done ++ [(key, v)])) := by
    rw [String.ofList_toList]
    exact addEntry_flatTable hnew
  obtain ⟨c, cs, hcons, hc⟩ := hkey.exists_cons
  rw [hshape]
  rw [hcons, List.cons_append] at hentry ⊢
  rw [line?]
  · rw [hentry]
    rw [← hcons]
    simp only [Option.bind_eq_bind, Option.bind_some, hadd]
    rfl
  all_goals exact cons_ne_cons hc rfl _

end Lines

section Documents

variable {entries done : List (String × Scalar)}

inductive Lines : List (String × Scalar) → List Char → Prop
  | nil : Lines [] []
  | cons {key text : String} {v : Scalar} {entries : List (String × Scalar)} {rest : List Char}
      (htext : scalarText? v = some text) (hrest : Lines entries rest) :
      Lines ((key, v) :: entries) (key.toList ++ " = ".toList ++ text.toList ++ '\n' :: rest)

structure Flat (entries : List (String × Scalar)) : Prop where
  bare : ∀ entry ∈ entries, Bare entry.1.toList
  nodup : (entries.map Prod.fst).Nodup
  plain : ∀ entry ∈ entries, Plain entry.2

theorem toList_intercalate_empty (texts : List String) :
    ("".intercalate texts).toList = (texts.map String.toList).flatten := by
  rw [String.toList_intercalate, String.toList_empty]
  induction texts with
  | nil => rfl
  | cons text texts ih =>
    cases texts with
    | nil => simp [List.intercalate]
    | cons next texts =>
      rw [List.map_cons, List.map_cons, List.intercalate_cons_cons, List.append_nil, ← List.map_cons, ih]
      rfl

theorem lines_of_mapM {texts : List String} (h : entries.mapM (fun (key, value) =>
    (scalarText? value).map (key ++ " = " ++ · ++ "\n")) = some texts) :
    Lines entries (texts.map String.toList).flatten := by
  induction entries generalizing texts with
  | nil =>
    obtain rfl := Option.some.inj h
    exact .nil
  | cons entry entries ih =>
    obtain ⟨key, v⟩ := entry
    rw [List.mapM_cons] at h
    obtain ⟨line, hline, h⟩ := Option.bind_eq_some_iff.1 h
    obtain ⟨rest, hrest, h⟩ := Option.bind_eq_some_iff.1 h
    obtain rfl := Option.some.inj h
    obtain ⟨text, htext, rfl⟩ := Option.map_eq_some_iff.1 hline
    have hcons := @Lines.cons key text v entries _ htext (ih hrest)
    simpa using hcons

theorem lines_of_render? {text : String} (h : render? entries = some text) :
    Lines entries text.toList := by
  obtain ⟨texts, htexts, h⟩ := Option.bind_eq_some_iff.1 h
  obtain rfl := Option.some.inj h
  rw [toList_intercalate_empty]
  exact lines_of_mapM htexts

theorem isSome_mapM_iff {α β : Type} (f : α → Option β) (as : List α) :
    (as.mapM f).isSome ↔ ∀ a ∈ as, (f a).isSome := by
  induction as with
  | nil => exact ⟨fun _ a ha => absurd ha List.not_mem_nil, fun _ => rfl⟩
  | cons a as ih =>
    rw [List.forall_mem_cons, ← ih, List.mapM_cons]
    cases f a with
    | none => simp
    | some b => cases as.mapM f <;> simp

theorem isSome_render?_iff (entries : List (String × Scalar)) :
    (render? entries).isSome ↔ ∀ entry ∈ entries, (scalarText? entry.2).isSome := by
  have hlines : (render? entries).isSome = (entries.mapM fun (key, value) =>
      (scalarText? value).map (key ++ " = " ++ · ++ "\n")).isSome := by
    rw [render?]
    cases entries.mapM fun (key, value) => (scalarText? value).map (key ++ " = " ++ · ++ "\n") <;> rfl
  rw [hlines, isSome_mapM_iff]
  simp only [Option.isSome_map]

theorem Lines.ne_mark {cs : List Char} (h : Lines entries cs) (hflat : Flat entries) (rest : List Char) :
    cs ≠ '\ufeff' :: rest := by
  intro heq
  cases h with
  | nil => cases heq
  | @cons key text v entries more htext hrest =>
    obtain ⟨c, cs, hcons, hc⟩ := (hflat.bare _ List.mem_cons_self).exists_cons
    rw [hcons] at heq
    exact cons_ne_cons hc rfl _ _ heq

theorem Lines.lines?_eq {cs : List Char} (h : Lines entries cs) (hflat : Flat (done ++ entries))
    {fuel : Nat} (hfuel : cs.length < fuel) :
    lines? fuel ⟨flatTable done, []⟩ cs = some ⟨flatTable (done ++ entries), []⟩ := by
  induction h generalizing done fuel with
  | nil =>
    obtain ⟨fuel, rfl⟩ := Nat.exists_eq_succ_of_ne_zero (Nat.ne_of_gt hfuel)
    rw [List.append_nil]
    rfl
  | @cons key text v entries rest htext hrest ih =>
    obtain ⟨fuel, rfl⟩ := Nat.exists_eq_succ_of_ne_zero (Nat.ne_of_gt (Nat.zero_lt_of_lt hfuel))
    have hmem : (key, v) ∈ done ++ (key, v) :: entries := by simp
    have hbare := hflat.bare _ hmem
    have hnew : key ∉ done.map Prod.fst := by
      have hnodup := hflat.nodup
      rw [List.map_append, List.nodup_append] at hnodup
      exact fun hkey => hnodup.2.2 key hkey key (by simp) rfl
    have hline := line?_append hbare (hflat.plain _ hmem) htext hnew rest
    have hshift : done ++ (key, v) :: entries = done ++ [(key, v)] ++ entries := by simp
    have hread := @ih (done ++ [(key, v)]) (hshift ▸ hflat) fuel (by simp at hfuel ⊢; omega)
    obtain ⟨c, cs, hcons, hc⟩ := hbare.exists_cons
    rw [hshift, ← hread]
    rw [hcons, List.cons_append] at hline ⊢
    rw [lines?, List.cons_append, List.cons_append,
      List.dropWhile_cons_of_neg (by simp [isBlank_eq_false_of_isBare hc])]
    simp only
    rw [List.cons_append, List.cons_append] at hline
    rw [hline]

theorem parse?_of_render? {text : String} (hflat : Flat entries) (h : render? entries = some text) :
    parse? text = some (.table (entries.map fun entry => (entry.1, .scalar entry.2))) := by
  have hlines := lines_of_render? h
  have hread := @Lines.lines?_eq entries [] text.toList hlines hflat (text.toList.length + 1)
    (Nat.lt_succ_self _)
  have hparse : parse? text = (lines? (text.toList.length + 1) ⟨flatTable [], []⟩ text.toList).map
      fun reading => reading.root.value := by
    rw [parse?]
    split
    case h_1 cs heq => exact absurd heq (hlines.ne_mark hflat cs)
    case h_2 => rfl
  rw [hparse, hread, Option.map_some, List.nil_append, value_flatTable]

end Documents

end TrafficMonitor.Toml
