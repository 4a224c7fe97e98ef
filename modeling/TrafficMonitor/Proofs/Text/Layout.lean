import TrafficMonitor.Text.Numeral
import TrafficMonitor.Proofs.Text.Tokens

namespace TrafficMonitor.Text

open CharClass

def secondColumn? (line : List Char) : Option Nat :=
  if fromToken 1 line = [] then none else some (line.length - (fromToken 1 line).length)

def spaced (left : List Char) (spaces : Nat) (right : List Char) : List Char :=
  left ++ (List.replicate spaces ' ' ++ right)

def IsWord (word : List Char) : Prop := word ≠ [] ∧ ∀ c ∈ word, isSpace c = false

theorem IsWord.all_isInk {word : List Char} (h : IsWord word) : ∀ c ∈ word, isInk c = true :=
  fun c hc => by rw [isInk, h.2 c hc, Bool.not_false]

theorem IsWord.notMem_newline {word : List Char} (h : IsWord word) : '\n' ∉ word :=
  fun hmem => absurd (h.2 '\n' hmem) (by decide)

theorem isWord_number (n : Nat) : IsWord (toString n).toList := by
  refine ⟨Numeral.toString_ne_nil n, fun c hc => ?_⟩
  have hdigit := isWord_of_isDigit (Numeral.isDigit_of_mem_toString hc)
  rw [← Bool.not_eq_true]
  intro hspace
  rw [isWord_eq_false_of_isSpace hspace] at hdigit
  cases hdigit

theorem isWord_of_all {word : List Char} (hne : word ≠ []) (h : word.all isInk = true) : IsWord word :=
  ⟨hne, isSpace_eq_false_of_all h⟩

section Spaced

variable {left right : List Char} (hleft : IsWord left) (hright : IsWord right) (n : Nat)

theorem dropWhile_spaces (cs : List Char) :
    (List.replicate n ' ' ++ cs).dropWhile isSpace = cs.dropWhile isSpace :=
  List.dropWhile_append_of_pos fun c hc => by rw [List.eq_of_mem_replicate hc]; rfl

include hleft in
theorem IsWord.dropWhile_spaced :
    (spaced left (n + 1) right).dropWhile isInk = List.replicate (n + 1) ' ' ++ right := by
  rw [spaced, List.dropWhile_append_of_pos hleft.all_isInk]
  rfl

include hleft hright

theorem fromToken_spaced : fromToken 1 (spaced left (n + 1) right) = right := by
  have hword := dropWhile_append_word hright.1 hright.all_isInk []
  rw [List.append_nil] at hword
  rw [fromToken, afterToken, spaced, dropWhile_append_word hleft.1 hleft.all_isInk, ← spaced,
    hleft.dropWhile_spaced, fromToken, dropWhile_spaces, hword]

theorem tokens_spaced : tokens (spaced left (n + 1) right) = [left, right] := by
  have hspace : ∀ c ∈ (List.replicate (n + 1) ' ' ++ right).head?, isSpace c = true := by
    rintro c ⟨⟩
    rfl
  have hword : tokens (right ++ []) = [right] := tokens_append hright.1 hright.2 (by simp)
  rw [List.append_nil] at hword
  rw [spaced, tokens_append hleft.1 hleft.2 hspace, ← tokens_dropWhile, dropWhile_spaces,
    tokens_dropWhile, hword]

theorem secondColumn?_spaced :
    secondColumn? (spaced left (n + 1) right) = some (left.length + (n + 1)) := by
  rw [secondColumn?, fromToken_spaced hleft hright, if_neg hright.1]
  simp only [spaced, List.length_append, List.length_replicate, Option.some.injEq]
  omega

theorem notMem_newline_spaced : '\n' ∉ spaced left n right := by
  simp [spaced, hleft.notMem_newline, hright.notMem_newline]

end Spaced

def OneLine (text : String) : Prop := '\n' ∉ text.toList

instance (text : String) : Decidable (OneLine text) := inferInstanceAs (Decidable (_ ∉ _))

theorem OneLine.append {a b : String} (ha : OneLine a) (hb : OneLine b) : OneLine (a ++ b) := by
  rw [OneLine, String.toList_append, List.mem_append, not_or]
  exact ⟨ha, hb⟩

theorem oneLine_padded (width n : Nat) : OneLine (Numeral.padded width n) :=
  fun h => absurd (Numeral.isDigit_of_mem_padded h) (by decide)

theorem splitOn_intercalate_append {ls more : List (List Char)} (h : ∀ l ∈ ls, '\n' ∉ l)
    (hmore : more ≠ []) : (['\n'].intercalate (ls ++ more)).splitOn '\n' =
      ls ++ (['\n'].intercalate more).splitOn '\n' := by
  induction ls with
  | nil => rfl
  | cons l ls ih =>
    obtain ⟨hl, hls⟩ := List.forall_mem_cons.1 h
    rw [List.cons_append, List.intercalate_cons_of_ne_nil (List.append_ne_nil_of_right_ne_nil ls hmore),
      List.append_assoc, List.singleton_append, List.splitOn_append_cons_self, ih hls,
      List.splitOn_eq_singleton hl]
    rfl

theorem utf8ByteSize_ofList_cons (c : Char) (cs : List Char) :
    (String.ofList (c :: cs)).utf8ByteSize = c.utf8Size + (String.ofList cs).utf8ByteSize := by
  rw [String.ofList_cons, String.utf8ByteSize_append, String.utf8ByteSize_singleton]

theorem length_le_utf8ByteSize (text : String) : text.length ≤ text.utf8ByteSize := by
  suffices h : ∀ cs : List Char, cs.length ≤ (String.ofList cs).utf8ByteSize by
    have htext := h text.toList
    rwa [String.ofList_toList, String.length_toList] at htext
  intro cs
  induction cs with
  | nil => exact Nat.zero_le _
  | cons c cs ih =>
    have hpos := c.utf8Size_pos
    rw [utf8ByteSize_ofList_cons, List.length_cons]
    omega

end TrafficMonitor.Text
