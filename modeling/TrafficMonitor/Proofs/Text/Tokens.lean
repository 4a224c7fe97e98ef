import TrafficMonitor.Text.CharClass
import Mathlib.Data.List.DropRight
import Mathlib.Data.List.TakeDrop
import Mathlib.Data.List.TakeWhile

namespace TrafficMonitor.Text

open CharClass

def isInk (c : Char) : Bool := !isSpace c

def tokens (cs : List Char) : List (List Char) := (cs.splitOnP isSpace).filter fun t => !t.isEmpty

def afterToken (cs : List Char) : List Char := (cs.dropWhile isSpace).dropWhile isInk

theorem span_append {α : Type} {p : α → Bool} {xs : List α} {c : α} (hxs : ∀ x ∈ xs, p x = true)
    (hc : p c = false) (rest : List α) : (xs ++ c :: rest).span p = (xs, c :: rest) := by
  rw [List.span_eq_takeWhile_dropWhile, List.takeWhile_append_of_pos hxs,
    List.dropWhile_append_of_pos hxs, List.takeWhile_cons, List.dropWhile_cons, hc]
  simp

def fromToken : Nat → List Char → List Char
  | 0, cs => cs.dropWhile isSpace
  | n + 1, cs => fromToken n (afterToken cs)

def token (n : Nat) (cs : List Char) : List Char := (fromToken n cs).takeWhile isInk

theorem isSpace_eq_false_of_all {word : List Char} (h : word.all isInk = true) :
    ∀ c ∈ word, isSpace c = false :=
  fun c hc => by simpa [isInk] using List.all_eq_true.1 h c hc

theorem tokens_cons_of_isSpace {c : Char} (hc : isSpace c = true) (cs : List Char) :
    tokens (c :: cs) = tokens cs := by
  simp [tokens, List.splitOnP_cons_eq_if_modifyHead, hc]

theorem tokens_dropWhile (cs : List Char) : tokens (cs.dropWhile isSpace) = tokens cs := by
  induction cs with
  | nil => rfl
  | cons c cs ih =>
    by_cases hc : isSpace c = true
    · rw [List.dropWhile_cons_of_pos hc, ih, tokens_cons_of_isSpace hc]
    · rw [List.dropWhile_cons_of_neg hc]

theorem tokens_append {word rest : List Char} (hne : word ≠ []) (hword : ∀ c ∈ word, isSpace c = false)
    (hrest : ∀ c ∈ rest.head?, isSpace c = true) : tokens (word ++ rest) = word :: tokens rest := by
  cases rest with
  | nil => simp [tokens, List.splitOnP_eq_singleton hword, hne]
  | cons c rest =>
    have hc : isSpace c = true := hrest c rfl
    rw [tokens_cons_of_isSpace hc, tokens, List.splitOnP_append_cons_of_forall_mem hword c hc,
      List.filter_cons_of_pos (by simpa using hne)]
    rfl

theorem head?_dropWhile (p : Char → Bool) (cs : List Char) : ∀ c ∈ (cs.dropWhile p).head?, p c = false := by
  intro c hc
  have h := List.head?_dropWhile_not p cs
  rw [Option.mem_def.1 hc] at h
  exact h

theorem token_append_afterToken (cs : List Char) : token 0 cs ++ afterToken cs = fromToken 0 cs :=
  List.takeWhile_append_dropWhile

theorem dropWhile_fromToken (n : Nat) (cs : List Char) :
    (fromToken n cs).dropWhile isSpace = fromToken n cs := by
  induction n generalizing cs with
  | zero => exact List.dropWhile_idempotent isSpace cs
  | succ n ih => exact ih (afterToken cs)

theorem head?_fromToken {n : Nat} {cs : List Char} : ∀ c ∈ (fromToken n cs).head?, isInk c = true := by
  intro c hc
  rw [← dropWhile_fromToken] at hc
  simpa [isInk] using head?_dropWhile isSpace (fromToken n cs) c hc

theorem token_ne_nil {n : Nat} {cs : List Char} (h : fromToken n cs ≠ []) : token n cs ≠ [] := by
  obtain ⟨c, rest, hrest⟩ := List.exists_cons_of_ne_nil h
  have hc : isInk c = true := head?_fromToken c (congrArg List.head? hrest)
  rw [token, hrest, List.takeWhile_cons_of_pos hc]
  exact List.cons_ne_nil _ _

theorem fromToken_succ (n : Nat) (cs : List Char) :
    fromToken (n + 1) cs = ((fromToken n cs).dropWhile isInk).dropWhile isSpace := by
  induction n generalizing cs with
  | zero => rfl
  | succ n ih => exact ih (afterToken cs)

theorem isSpace_of_mem_token {n : Nat} {cs : List Char} {c : Char} (h : c ∈ token n cs) :
    isSpace c = false := by
  simpa [isInk] using List.mem_takeWhile_imp h

theorem tokens_eq_cons {cs : List Char} (h : fromToken 0 cs ≠ []) :
    tokens cs = token 0 cs :: tokens (afterToken cs) := by
  have hspace : ∀ c ∈ (afterToken cs).head?, isSpace c = true := fun c hc => by
    simpa [isInk] using head?_dropWhile isInk (cs.dropWhile isSpace) c hc
  have htokens := tokens_append (token_ne_nil h) (fun _ => isSpace_of_mem_token) hspace
  rw [token_append_afterToken] at htokens
  rw [← htokens, fromToken, tokens_dropWhile]

theorem fromToken_nil (n : Nat) : fromToken n [] = [] := by
  induction n with
  | zero => rfl
  | succ n ih => exact ih

theorem fromToken_eq_nil {cs : List Char} (h : fromToken 0 cs = []) (n : Nat) : fromToken n cs = [] := by
  cases n with
  | zero => exact h
  | succ n =>
    have hafter : afterToken cs = [] := congrArg (List.dropWhile isInk) h
    rw [fromToken, hafter, fromToken_nil]

theorem tokens_eq_nil {cs : List Char} (h : fromToken 0 cs = []) : tokens cs = [] := by
  rw [← tokens_dropWhile, show cs.dropWhile isSpace = [] from h]
  rfl

theorem tokens_fromToken (n : Nat) (cs : List Char) : tokens (fromToken n cs) = (tokens cs).drop n := by
  induction n generalizing cs with
  | zero => exact tokens_dropWhile cs
  | succ n ih =>
    by_cases h : fromToken 0 cs = []
    · rw [fromToken_eq_nil h, tokens_eq_nil h, List.drop_nil]
      rfl
    · rw [fromToken, ih, tokens_eq_cons h, List.drop_succ_cons]

theorem getElem?_tokens (n : Nat) (cs : List Char) :
    (tokens cs)[n]? = if fromToken n cs = [] then none else some (token n cs) := by
  have hstart : fromToken 0 (fromToken n cs) = fromToken n cs := dropWhile_fromToken n cs
  rw [← List.head?_drop, ← tokens_fromToken]
  split
  case isTrue h => rw [h]; rfl
  case isFalse h =>
    rw [tokens_eq_cons (by rwa [hstart]), List.head?_cons, token, hstart]
    rfl

section Leading

variable {word : List Char} (hne : word ≠ []) (hink : ∀ c ∈ word, isInk c = true)

include hne hink

theorem dropWhile_append_word (rest : List Char) : (word ++ rest).dropWhile isSpace = word ++ rest := by
  obtain ⟨c, word, rfl⟩ := List.exists_cons_of_ne_nil hne
  exact List.dropWhile_cons_of_neg (by simpa [isInk] using hink c List.mem_cons_self)

theorem token_zero_append_word (rest : List Char) : token 0 (word ++ ' ' :: rest) = word := by
  rw [token, fromToken, dropWhile_append_word hne hink, List.takeWhile_append_of_pos hink]
  exact List.append_nil word

theorem fromToken_succ_append_word (n : Nat) (rest : List Char) :
    fromToken (n + 1) (word ++ ' ' :: rest) = fromToken n rest := by
  have hafter : afterToken (word ++ ' ' :: rest) = ' ' :: rest := by
    rw [afterToken, dropWhile_append_word hne hink, List.dropWhile_append_of_pos hink]
    rfl
  rw [fromToken, hafter]
  cases n <;> rfl

theorem fromToken_succ_word (n : Nat) : fromToken (n + 1) word = [] := by
  have hafter : afterToken word = [] := by
    have hword := dropWhile_append_word hne hink []
    rw [List.append_nil] at hword
    rw [afterToken, hword, List.dropWhile_eq_nil_iff.2 hink]
  rw [fromToken, hafter, fromToken_nil]

end Leading

theorem lt_length_tokens_iff {n : Nat} {cs : List Char} : n < (tokens cs).length ↔ fromToken n cs ≠ [] := by
  rw [← Nat.not_le, ← List.getElem?_eq_none_iff, getElem?_tokens]
  simp

theorem getElem_tokens {n : Nat} {cs : List Char} (h : n < (tokens cs).length) :
    (tokens cs)[n] = token n cs := by
  have hget := getElem?_tokens n cs
  rw [List.getElem?_eq_getElem h, if_neg (lt_length_tokens_iff.1 h)] at hget
  exact Option.some.inj hget

end TrafficMonitor.Text
