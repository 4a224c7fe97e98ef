import TrafficMonitor.Log.RequestLine
import Mathlib.Data.List.TakeDrop

namespace TrafficMonitor.Log.RequestLine

inductive IsPiece : List Char → Prop
  | intro {c : Char} {text : List Char} (opens : c = '?' ∨ c = '&') (ne_nil : text ≠ [])
      (single : '&' ∉ text) : IsPiece (c :: text)

def IsQuery (cs : List Char) : Prop :=
  ∃ us : List (List Char), (∀ u ∈ us, IsPiece u) ∧ us.flatten = cs

theorem IsQuery.nil : IsQuery [] := ⟨[], List.forall_mem_nil _, rfl⟩

theorem IsQuery.cons {u cs : List Char} (hcs : IsQuery cs) (hu : IsPiece u) : IsQuery (u ++ cs) := by
  obtain ⟨us, hus, rfl⟩ := hcs
  exact ⟨u :: us, List.forall_mem_cons.2 ⟨hu, hus⟩, rfl⟩

theorem piecesFrom_cons {c : Char} (hc : c ≠ '&') (b : Bool) (cs : List Char) :
    piecesFrom b (c :: cs) = piecesFrom false cs := by
  simp [piecesFrom, hc]

theorem piecesFrom_append {text : List Char} (h : '&' ∉ text) (cs : List Char) :
    piecesFrom false (text ++ cs) = piecesFrom false cs := by
  induction text with
  | nil => rfl
  | cons c text ih =>
    rw [List.mem_cons, not_or] at h
    rw [List.cons_append, piecesFrom_cons (Ne.symm h.1), ih h.2]

theorem IsPiece.append {u : List Char} (h : IsPiece u) (cs : List Char) :
    isQuery (u ++ cs) = piecesFrom false cs ∧ piecesFrom false (u ++ cs) = piecesFrom false cs := by
  obtain @⟨c, text, opens, ne_nil, single⟩ := h
  obtain ⟨d, text, rfl⟩ := List.exists_cons_of_ne_nil ne_nil
  rw [List.mem_cons, not_or] at single
  have htext (b : Bool) : piecesFrom b (d :: text ++ cs) = piecesFrom false cs := by
    rw [List.cons_append, piecesFrom_cons (Ne.symm single.1), piecesFrom_append single.2]
  rcases opens with rfl | rfl
  · exact ⟨htext true, htext false⟩
  · exact ⟨htext true, htext true⟩

theorem piecesFrom_flatten {us : List (List Char)} (h : ∀ u ∈ us, IsPiece u) :
    piecesFrom false us.flatten = true := by
  induction us with
  | nil => rfl
  | cons u us ih =>
    rw [List.forall_mem_cons] at h
    rw [List.flatten_cons, (h.1.append _).2, ih h.2]

theorem exists_pieces {b : Bool} {cs : List Char} (h : piecesFrom b cs = true) :
    ∃ text us, cs = text ++ List.flatten us ∧ (b = true → text ≠ []) ∧ '&' ∉ text ∧
      ∀ u ∈ us, IsPiece u := by
  induction cs generalizing b with
  | nil =>
    refine ⟨[], [], rfl, ?_, List.not_mem_nil, List.forall_mem_nil _⟩
    rintro rfl
    cases h
  | cons c cs ih =>
    by_cases hc : c = '&'
    · subst hc
      simp only [piecesFrom, if_true, Bool.and_eq_true, Bool.not_eq_true'] at h
      obtain ⟨rfl, h⟩ := h
      obtain ⟨text, us, rfl, hne, hsingle, hus⟩ := ih h
      refine ⟨[], ('&' :: text) :: us, rfl, nofun, List.not_mem_nil, ?_⟩
      exact List.forall_mem_cons.2 ⟨.intro (.inr rfl) (hne rfl) hsingle, hus⟩
    · rw [piecesFrom_cons hc] at h
      obtain ⟨text, us, rfl, -, hsingle, hus⟩ := ih h
      refine ⟨c :: text, us, rfl, fun _ => List.cons_ne_nil _ _, ?_, hus⟩
      rw [List.mem_cons, not_or]
      exact ⟨Ne.symm hc, hsingle⟩

theorem isQuery_iff (cs : List Char) : isQuery cs = true ↔ IsQuery cs := by
  constructor
  · intro h
    cases cs with
    | nil => exact .nil
    | cons c cs =>
      simp only [isQuery, Bool.and_eq_true, Bool.or_eq_true, beq_iff_eq] at h
      obtain ⟨text, us, rfl, hne, hsingle, hus⟩ := exists_pieces h.2
      exact ⟨(c :: text) :: us, List.forall_mem_cons.2 ⟨.intro h.1 (hne rfl) hsingle, hus⟩, rfl⟩
  · rintro ⟨us, hus, rfl⟩
    cases us with
    | nil => rfl
    | cons u us =>
      rw [List.forall_mem_cons] at hus
      rw [List.flatten_cons, (hus.1.append _).1, piecesFrom_flatten hus.2]

theorem IsQuery.head_eq {c : Char} {cs : List Char} (h : IsQuery (c :: cs)) : c = '?' ∨ c = '&' := by
  have hquery := (isQuery_iff _).2 h
  simp only [isQuery, Bool.and_eq_true, Bool.or_eq_true, beq_iff_eq] at hquery
  exact hquery.1

structure Splits (target path query : List Char) : Prop where
  append_eq : path ++ query = target
  noMark : '?' ∉ path
  isQuery : IsQuery query

theorem Splits.cons {c : Char} {cs path query : List Char} (h : Splits cs path query) (hc : c ≠ '?') :
    Splits (c :: cs) (c :: path) query := by
  refine ⟨congrArg (c :: ·) h.append_eq, ?_, h.isQuery⟩
  rw [List.mem_cons, not_or]
  exact ⟨Ne.symm hc, h.noMark⟩

theorem Splits.of_isQuery {cs : List Char} (h : IsQuery cs) : Splits cs [] cs :=
  ⟨rfl, List.not_mem_nil, h⟩

theorem Splits.cons_inv {c : Char} {cs path query : List Char} (h : Splits (c :: cs) path query) :
    (path = [] ∧ IsQuery (c :: cs)) ∨ ∃ rest, path = c :: rest ∧ c ≠ '?' ∧ Splits cs rest query := by
  obtain ⟨happend, hmark, hquery⟩ := h
  cases path with
  | nil => exact .inl ⟨rfl, happend ▸ hquery⟩
  | cons d rest =>
    rw [List.mem_cons, not_or] at hmark
    obtain ⟨rfl, hrest⟩ := List.cons.inj happend
    exact .inr ⟨rest, rfl, Ne.symm hmark.1, hrest, hmark.2, hquery⟩

theorem splitTarget?_eq_none {cs : List Char} (h : splitTarget? cs = none) (path query : List Char) :
    ¬Splits cs path query := by
  induction cs generalizing path with
  | nil => cases h
  | cons c cs ih =>
    intro hsplit
    rw [splitTarget?] at h
    rcases hsplit.cons_inv with ⟨-, hquery⟩ | ⟨rest, -, hc, hrest⟩
    · have hquery' := (isQuery_iff _).2 hquery
      rcases hquery.head_eq with rfl | rfl
      · rw [if_pos rfl, if_pos hquery'] at h
        cases h
      · rw [if_neg (by decide)] at h
        split at h
        case h_1 => cases h
        case h_2 =>
          rw [if_pos ⟨rfl, hquery'⟩] at h
          cases h
    · rw [if_neg hc] at h
      split at h
      case h_1 => cases h
      case h_2 hnone => exact ih hnone rest hrest

theorem splitTarget?_eq_some {cs path query : List Char} (h : splitTarget? cs = some (path, query)) :
    Splits cs path query ∧ ∀ p q, Splits cs p q → p.length ≤ path.length := by
  induction cs generalizing path with
  | nil =>
    cases h
    refine ⟨⟨rfl, List.not_mem_nil, .nil⟩, ?_⟩
    intro p q hsplit
    exact Nat.le_of_eq (congrArg List.length (List.append_eq_nil_iff.1 hsplit.append_eq).1)
  | cons c cs ih =>
    rw [splitTarget?] at h
    split at h
    case isTrue hc =>
      split at h
      case isTrue hquery =>
        cases h
        refine ⟨.of_isQuery ((isQuery_iff _).1 hquery), ?_⟩
        intro p q hsplit
        rcases hsplit.cons_inv with ⟨rfl, -⟩ | ⟨rest, -, hne, -⟩
        · exact Nat.le_refl _
        · exact absurd hc hne
      case isFalse => cases h
    case isFalse hc =>
      split at h
      case h_1 rest query hrest =>
        cases h
        obtain ⟨hsplit, hlongest⟩ := ih hrest
        refine ⟨hsplit.cons hc, ?_⟩
        intro p q hp
        rcases hp.cons_inv with ⟨rfl, -⟩ | ⟨rest', rfl, -, hrest'⟩
        · exact Nat.zero_le _
        · exact Nat.succ_le_succ (hlongest rest' q hrest')
      case h_2 hnone =>
        split at h
        case isTrue hquery =>
          cases h
          refine ⟨.of_isQuery ((isQuery_iff _).1 hquery.2), ?_⟩
          intro p q hp
          rcases hp.cons_inv with ⟨rfl, -⟩ | ⟨rest, -, -, hrest⟩
          · exact Nat.le_refl _
          · exact absurd hrest (splitTarget?_eq_none hnone rest q)
        case isFalse => cases h

def SplitsTarget (target path query : List Char) : Prop := Splits target path query ∧ path ≠ []

theorem target?_eq_none {target : List Char} (h : target? target = none) (path query : List Char) :
    ¬SplitsTarget target path query := by
  rintro ⟨hsplit, hne⟩
  cases target with
  | nil => exact hne (List.append_eq_nil_iff.1 hsplit.append_eq).1
  | cons c cs =>
    rcases hsplit.cons_inv with ⟨rfl, -⟩ | ⟨rest, -, hc, hrest⟩
    · exact hne rfl
    · rw [target?, if_neg hc, Option.map_eq_none_iff] at h
      exact splitTarget?_eq_none h rest query hrest

theorem target?_eq_some {target path query : List Char} (h : target? target = some (path, query)) :
    SplitsTarget target path query ∧ ∀ p q, SplitsTarget target p q → p.length ≤ path.length := by
  cases target with
  | nil => cases h
  | cons c cs =>
    rw [target?] at h
    split at h
    case isTrue => cases h
    case isFalse hc =>
      obtain ⟨⟨rest, query'⟩, hrest, hread⟩ := Option.map_eq_some_iff.1 h
      cases hread
      obtain ⟨hsplit, hlongest⟩ := splitTarget?_eq_some hrest
      refine ⟨⟨hsplit.cons hc, List.cons_ne_nil _ _⟩, ?_⟩
      rintro p q ⟨hp, -⟩
      rcases hp.cons_inv with ⟨rfl, -⟩ | ⟨rest', rfl, -, hrest'⟩
      · exact Nat.zero_le _
      · exact Nat.succ_le_succ (hlongest rest' q hrest')

theorem target?_eq_some_iff {target path query : List Char} : target? target = some (path, query) ↔
    SplitsTarget target path query ∧ ∀ p q, SplitsTarget target p q → p.length ≤ path.length := by
  refine ⟨target?_eq_some, ?_⟩
  rintro ⟨hsplit, hlongest⟩
  cases hread : target? target with
  | none => exact absurd hsplit (target?_eq_none hread path query)
  | some read =>
    obtain ⟨hsplit', hlongest'⟩ := target?_eq_some hread
    have hlength : path.length = read.1.length :=
      Nat.le_antisymm (hlongest' path query hsplit) (hlongest read.1 read.2 hsplit')
    have happend := hsplit.1.append_eq.trans hsplit'.1.append_eq.symm
    obtain ⟨hpath, hquery⟩ := List.append_inj happend hlength
    rw [hpath, hquery]

end TrafficMonitor.Log.RequestLine
