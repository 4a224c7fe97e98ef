import TrafficMonitor.Follow.Line

namespace TrafficMonitor.Follow

def pieces (bs : List UInt8) : List (List UInt8) :=
  (bs.splitOn lineFeed).dropLast.map (· ++ [lineFeed])

def completeLines (bs : List UInt8) : List String := (pieces bs).map lineText

def Ended (bs : List UInt8) : Prop := bs = [] ∨ ∃ xs, bs = xs ++ [lineFeed]

theorem pieces_of_notMem {bs : List UInt8} (h : lineFeed ∉ bs) : pieces bs = [] := by
  rw [pieces, List.splitOn_eq_singleton h]
  rfl

theorem pieces_append_cons (xs ys : List UInt8) :
    pieces (xs ++ lineFeed :: ys) = (xs.splitOn lineFeed).map (· ++ [lineFeed]) ++ pieces ys := by
  rw [pieces, List.splitOn_append_cons_self, List.dropLast_append_of_ne_nil (List.splitOn_ne_nil _ _),
    List.map_append]
  rfl

theorem completeLines_append {bs : List UInt8} (hb : Ended bs) (cs : List UInt8) :
    completeLines (bs ++ cs) = completeLines bs ++ completeLines cs := by
  rcases hb with rfl | ⟨xs, rfl⟩
  · rfl
  · have hn : pieces [] = [] := rfl
    rw [List.append_assoc, List.singleton_append, completeLines, completeLines, completeLines,
      pieces_append_cons, pieces_append_cons, hn, List.append_nil, List.map_append]

theorem completeLines_of_notMem {bs : List UInt8} (h : lineFeed ∉ bs) : completeLines bs = [] := by
  rw [completeLines, pieces_of_notMem h, List.map_nil]

theorem completeLines_line {xs : List UInt8} (h : lineFeed ∉ xs) :
    completeLines (xs ++ [lineFeed]) = [lineText (xs ++ [lineFeed])] := by
  rw [completeLines, pieces_append_cons, List.splitOn_eq_singleton h]
  rfl

theorem takeLine_of_notMem {bs : List UInt8} (h : lineFeed ∉ bs) : takeLine bs = (bs, []) := by
  induction bs with
  | nil => rfl
  | cons b bs ih =>
    rw [List.mem_cons, not_or] at h
    rw [takeLine, if_neg (Ne.symm h.1), ih h.2]

theorem takeLine_line {xs : List UInt8} (h : lineFeed ∉ xs) (ys : List UInt8) :
    takeLine (xs ++ lineFeed :: ys) = (xs ++ [lineFeed], ys) := by
  induction xs with
  | nil => simp [takeLine]
  | cons x xs ih =>
    rw [List.mem_cons, not_or] at h
    rw [List.cons_append, takeLine, if_neg (Ne.symm h.1), ih h.2]
    rfl

theorem isComplete_line (xs : List UInt8) : isComplete (xs ++ [lineFeed]) = true := by
  simp [isComplete]

theorem isComplete_of_notMem {bs : List UInt8} (h : lineFeed ∉ bs) : isComplete bs = false := by
  rw [isComplete, beq_eq_false_iff_ne]
  intro hl
  exact h (List.mem_of_getLast? hl)

section Spelling

open Text

theorem lineText_bytes (text : String) :
    lineText text.toByteArray.data.toList = .ofList (trimLineEnds text.toList) := by
  rw [lineText, Utf8.decodeFrom_bytes]

def withLineEnd (returns : Nat) (line : String) : String :=
  line ++ .ofList (List.replicate returns '\r' ++ ['\n'])

def spelled (returns : Nat) (lines : List String) : List UInt8 :=
  lines.flatMap fun line => (withLineEnd returns line).toByteArray.data.toList

theorem lineText_withLineEnd (returns : Nat) {line : String}
    (hlast : ∀ c ∈ line.toList.getLast?, isLineEnd c = false) :
    lineText (withLineEnd returns line).toByteArray.data.toList = line := by
  have hends : ∀ c ∈ List.replicate returns '\r' ++ ['\n'], isLineEnd c = true := by
    intro c hc
    rcases List.mem_append.1 hc with hc | hc
    · rw [List.eq_of_mem_replicate hc]
      rfl
    · rw [List.mem_singleton.1 hc]
      rfl
  rw [lineText_bytes, withLineEnd, String.toList_append, String.toList_ofList,
    trimLineEnds_append hends hlast, String.ofList_toList]

theorem exists_bytes_withLineEnd (returns : Nat) {line : String} (hfeed : '\n' ∉ line.toList) :
    ∃ xs, lineFeed ∉ xs ∧ (withLineEnd returns line).toByteArray.data.toList = xs ++ [lineFeed] := by
  refine ⟨(line.toList ++ List.replicate returns '\r').flatMap String.utf8EncodeChar, ?_, ?_⟩
  · refine mt (Utf8.mem_bytes_iff (a := '\n') (by decide) _).1 ?_
    simp [hfeed]
  · rw [Utf8.bytes_eq, withLineEnd, String.toList_append, String.toList_ofList, ← List.append_assoc,
      List.flatMap_append]
    rfl

theorem completeLines_spelled (returns : Nat) {lines : List String}
    (hfeed : ∀ line ∈ lines, '\n' ∉ line.toList)
    (hlast : ∀ line ∈ lines, ∀ c ∈ line.toList.getLast?, isLineEnd c = false) :
    completeLines (spelled returns lines) = lines := by
  induction lines with
  | nil => rfl
  | cons line lines ih =>
    obtain ⟨hfeed, hfeeds⟩ := List.forall_mem_cons.1 hfeed
    obtain ⟨hlast, hlasts⟩ := List.forall_mem_cons.1 hlast
    have htext := lineText_withLineEnd returns hlast
    obtain ⟨xs, hclean, hbytes⟩ := exists_bytes_withLineEnd returns hfeed
    rw [hbytes] at htext
    rw [spelled, List.flatMap_cons, hbytes, completeLines_append (.inr ⟨xs, rfl⟩),
      completeLines_line hclean, htext, ← spelled, ih hfeeds hlasts, List.singleton_append]

end Spelling

end TrafficMonitor.Follow
