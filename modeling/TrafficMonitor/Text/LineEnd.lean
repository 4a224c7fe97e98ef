namespace TrafficMonitor.Text

def isLineEnd (c : Char) : Bool := c == '\n' || c == '\r'

def trimLineEnds (cs : List Char) : List Char := (cs.reverse.dropWhile isLineEnd).reverse

theorem trimLineEnds_append_dropped (cs : List Char) :
    trimLineEnds cs ++ (cs.reverse.takeWhile isLineEnd).reverse = cs := by
  rw [trimLineEnds, ← List.reverse_append, List.takeWhile_append_dropWhile, List.reverse_reverse]

theorem trimLineEnds_append {cs ends : List Char} (hends : ∀ c ∈ ends, isLineEnd c = true)
    (hlast : ∀ c ∈ cs.getLast?, isLineEnd c = false) : trimLineEnds (cs ++ ends) = cs := by
  have hkept : cs.reverse.dropWhile isLineEnd = cs.reverse := by
    rw [List.getLast?_eq_head?_reverse] at hlast
    cases hcs : cs.reverse with
    | nil => rfl
    | cons c rest =>
      have hc := hlast c (by simp [hcs])
      exact List.dropWhile_cons_of_neg (by simp [hc])
  rw [trimLineEnds, List.reverse_append,
    List.dropWhile_append_of_pos fun c hc => hends c (List.mem_reverse.1 hc), hkept,
    List.reverse_reverse]

end TrafficMonitor.Text
