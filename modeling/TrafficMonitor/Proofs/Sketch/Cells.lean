import Mathlib.Data.List.Induction
import Mathlib.Data.Nat.Basic
import Mathlib.Order.Basic
import TrafficMonitor.Sketch.CountMin

namespace TrafficMonitor.Sketch.CountMin

open Text

variable {κ : Type}

theorem column_congr {s t : CountMin κ} (hw : t.width = s.width) (hh : t.hash = s.hash) :
    t.column = s.column := by
  funext key row
  simp only [column, hw, hh]

theorem count_empty (width depth : Nat) (hash : κ → UInt64) (c : Nat × Nat) :
    (empty width depth hash).count c = 0 := Std.HashMap.getD_empty

theorem count_bump (s : CountMin κ) (key : κ) (row : Nat) (c : Nat × Nat) :
    (s.bump key row).count c =
      if s.cell key row = c then min (s.count c + 1) Numeral.maxWord else s.count c := by
  simp only [bump, count, Std.HashMap.getD_insert, beq_iff_eq]
  split
  case isTrue h => rw [h]
  case isFalse => rfl

def addRows (s : CountMin κ) (key : κ) (n : Nat) : Nat × CountMin κ :=
  (List.range n).foldl (fun (least, t) row =>
    let t := t.bump key row
    (min least (t.count (t.cell key row)), t)) (Numeral.maxWord, s)

theorem addRows_succ (s : CountMin κ) (key : κ) (n : Nat) :
    s.addRows key (n + 1) =
      (min (s.addRows key n).1
          (((s.addRows key n).2.bump key n).count ((s.addRows key n).2.cell key n)),
        (s.addRows key n).2.bump key n) := by
  rw [addRows, List.range_succ, List.foldl_append]
  rfl

structure Added (s : CountMin κ) (key : κ) (n : Nat) (least : Nat) (t : CountMin κ) : Prop where
  width_eq : t.width = s.width
  depth_eq : t.depth = s.depth
  hash_eq : t.hash = s.hash
  count_eq : ∀ c, t.count c =
    if c.1 < n ∧ c.2 = s.column key c.1 then min (s.count c + 1) Numeral.maxWord else s.count c
  le_least_iff : ∀ m, m ≤ least ↔ m ≤ Numeral.maxWord ∧ ∀ row < n, m ≤ t.count (s.cell key row)

namespace Added

variable {s t : CountMin κ} {key : κ} {n least : Nat}

theorem column_eq (h : Added s key n least t) : t.column = s.column :=
  column_congr h.width_eq h.hash_eq

theorem cell_eq (h : Added s key n least t) (row : Nat) : t.cell key row = s.cell key row := by
  rw [cell, cell, h.column_eq]

theorem bump (h : Added s key n least t) :
    Added s key (n + 1) (min least ((t.bump key n).count (t.cell key n))) (t.bump key n) := by
  have hcount : ∀ c, (t.bump key n).count c =
      if c.1 < n + 1 ∧ c.2 = s.column key c.1 then min (s.count c + 1) Numeral.maxWord
      else s.count c := by
    intro c
    rw [count_bump, h.cell_eq, h.count_eq]
    by_cases hc : s.cell key n = c
    · subst hc
      simp [cell]
    · -- any other cell of this row belongs to another column
      rw [if_neg hc]
      refine if_congr ⟨fun ⟨hl, hk⟩ => ⟨by omega, hk⟩, fun ⟨hl, hk⟩ => ⟨?_, hk⟩⟩ rfl rfl
      by_contra hn
      have hrow : c.1 = n := by omega
      refine hc (Prod.ext hrow.symm ?_)
      rw [hk, hrow]
      rfl
  refine ⟨h.width_eq, h.depth_eq, h.hash_eq, hcount, fun m => ?_⟩
  have hsame : ∀ row < n, (t.bump key n).count (s.cell key row) = t.count (s.cell key row) := by
    intro row hrow
    have hne : s.cell key n ≠ s.cell key row := by
      intro he
      exact hrow.ne' (congrArg Prod.fst he)
    rw [count_bump, h.cell_eq, if_neg hne]
  rw [Nat.le_min, h.le_least_iff, h.cell_eq, and_assoc]
  refine and_congr_right fun _ => ?_
  constructor
  · rintro ⟨hbelow, hlast⟩ row hrow
    rcases Nat.lt_succ_iff_lt_or_eq.1 hrow with hlt | rfl
    · rw [hsame row hlt]
      exact hbelow row hlt
    · exact hlast
  · intro hall
    refine ⟨fun row hrow => ?_, hall n (Nat.lt_succ_self n)⟩
    rw [← hsame row hrow]
    exact hall row (Nat.lt_succ_of_lt hrow)

end Added

theorem added_addRows (s : CountMin κ) (key : κ) (n : Nat) :
    Added s key n (s.addRows key n).1 (s.addRows key n).2 := by
  induction n with
  | zero => exact ⟨rfl, rfl, rfl, fun c => by simp [addRows], fun m => by simp [addRows]⟩
  | succ n ih =>
    rw [addRows_succ]
    exact ih.bump

theorem added_add (s : CountMin κ) (key : κ) :
    Added s key s.depth (s.add key).1 (s.add key).2 := added_addRows s key s.depth

theorem le_estimate_iff {s : CountMin κ} (hd : 0 < s.depth) {key : κ} {m : Nat} :
    m ≤ s.estimate key ↔ ∀ row < s.depth, m ≤ s.count (s.cell key row) := by
  have hne : (List.range s.depth).map (fun row => s.count (s.cell key row)) ≠ [] := by
    intro h
    rw [List.map_eq_nil_iff, List.range_eq_nil] at h
    omega
  obtain ⟨least, hl⟩ := Option.isSome_iff_exists.1 (List.isSome_min?_of_ne_nil hne)
  rw [estimate, hl, Option.getD_some, List.le_min?_iff hl]
  simp only [List.mem_map, List.mem_range, forall_exists_index, and_imp, forall_apply_eq_imp_iff₂]

theorem count_add_le (s : CountMin κ) (key : κ) {row : Nat} (hr : row < s.depth) :
    (s.add key).2.count (s.cell key row) ≤ Numeral.maxWord := by
  rw [(added_add s key).count_eq, if_pos ⟨hr, rfl⟩]
  exact Nat.min_le_right _ _

theorem add_fst_eq_estimate {s : CountMin κ} (hd : 0 < s.depth) (key : κ) :
    (s.add key).1 = (s.add key).2.estimate key := by
  have h := added_add s key
  refine eq_of_forall_le_iff fun m => ?_
  rw [h.le_least_iff, le_estimate_iff (h.depth_eq ▸ hd), h.depth_eq]
  simp only [h.cell_eq]
  constructor
  · exact fun hm => hm.2
  · exact fun hm => ⟨(hm 0 hd).trans (count_add_le s key hd), hm⟩

def addAll (s : CountMin κ) (keys : List κ) : CountMin κ :=
  keys.foldl (fun s key => (s.add key).2) s

theorem addAll_concat (s : CountMin κ) (keys : List κ) (key : κ) :
    s.addAll (keys ++ [key]) = ((s.addAll keys).add key).2 := by
  simp only [addAll, List.foldl_append, List.foldl_cons, List.foldl_nil]

theorem addAll_shape (s : CountMin κ) (keys : List κ) :
    (s.addAll keys).depth = s.depth ∧ (s.addAll keys).column = s.column := by
  induction keys using List.reverseRecOn with
  | nil => exact ⟨rfl, rfl⟩
  | append_singleton keys key ih =>
    have h := added_add (s.addAll keys) key
    rw [addAll_concat]
    exact ⟨h.depth_eq.trans ih.1, h.column_eq.trans ih.2⟩

def sharing (s : CountMin κ) (keys : List κ) (key : κ) (row : Nat) : Nat :=
  keys.countP fun other => s.column other row = s.column key row

section Run

variable {width depth : Nat} {hash : κ → UInt64} {keys : List κ}

theorem count_addAll_eq_min (keys : List κ) {row : Nat} (hr : row < depth) (column : Nat) :
    ((empty width depth hash).addAll keys).count (row, column) =
      min (keys.countP fun key => (empty width depth hash).column key row = column)
        Numeral.maxWord := by
  induction keys using List.reverseRecOn with
  | nil => exact count_empty width depth hash (row, column)
  | append_singleton keys key ih =>
    obtain ⟨hdepth, hcolumn⟩ := addAll_shape (empty width depth hash) keys
    have hrow : row < ((empty width depth hash).addAll keys).depth := hdepth ▸ hr
    rw [addAll_concat, (added_add _ key).count_eq, ih, hcolumn, List.countP_append,
      List.countP_singleton]
    by_cases hc : (empty width depth hash).column key row = column
    · rw [if_pos ⟨hrow, hc.symm⟩, if_pos (decide_eq_true hc)]
      omega
    · rw [if_neg fun h => hc h.2.symm, if_neg (by simpa using hc), Nat.add_zero]

theorem le_estimate_addAll_iff_le_min (hd : 0 < depth) (keys : List κ) {key : κ} {m : Nat} :
    m ≤ ((empty width depth hash).addAll keys).estimate key ↔
      ∀ row < depth, m ≤ min ((empty width depth hash).sharing keys key row) Numeral.maxWord := by
  obtain ⟨hdepth, hcolumn⟩ := addAll_shape (empty width depth hash) keys
  have hpos : 0 < ((empty width depth hash).addAll keys).depth := hdepth ▸ hd
  rw [le_estimate_iff hpos, hdepth]
  refine forall_congr' fun row => imp_congr_right fun hr => ?_
  rw [cell, hcolumn, count_addAll_eq_min keys (show row < depth from hr)]
  rfl

theorem le_estimate_addAll_iff (hd : 0 < depth) (hk : keys.length ≤ Numeral.maxWord) {key : κ}
    {m : Nat} :
    m ≤ ((empty width depth hash).addAll keys).estimate key ↔
      ∀ row < depth, m ≤ (empty width depth hash).sharing keys key row := by
  have hword (row : Nat) : (empty width depth hash).sharing keys key row ≤ Numeral.maxWord :=
    List.countP_le_length.trans hk
  simp only [le_estimate_addAll_iff_le_min hd keys, Nat.min_eq_left (hword _)]

theorem estimate_le_sharing (hk : keys.length ≤ Numeral.maxWord) (key : κ) {row : Nat}
    (hr : row < depth) :
    ((empty width depth hash).addAll keys).estimate key ≤
      (empty width depth hash).sharing keys key row :=
  (le_estimate_addAll_iff (Nat.zero_lt_of_lt hr) hk).1 (Nat.le_refl _) row hr

theorem estimate_le_estimate_concat (hd : 0 < depth) (keys : List κ) (added key : κ)
    (hk : (keys ++ [added]).length ≤ Numeral.maxWord) :
    ((empty width depth hash).addAll keys).estimate key ≤
      ((empty width depth hash).addAll (keys ++ [added])).estimate key := by
  have hbefore : keys.length ≤ Numeral.maxWord := by
    rw [List.length_append] at hk
    omega
  refine (le_estimate_addAll_iff hd hk).2 fun row hr => ?_
  refine (estimate_le_sharing hbefore key hr).trans ?_
  rw [sharing, sharing, List.countP_append]
  exact Nat.le_add_right _ _

variable [DecidableEq κ]

theorem count_le_sharing (s : CountMin κ) (keys : List κ) (key : κ) (row : Nat) :
    keys.count key ≤ s.sharing keys key row := by
  refine List.countP_mono_left fun other _ ho => ?_
  rw [beq_iff_eq] at ho
  rw [ho]
  exact decide_eq_true rfl

theorem count_le_estimate (hd : 0 < depth) (hk : keys.length ≤ Numeral.maxWord) (key : κ) :
    keys.count key ≤ ((empty width depth hash).addAll keys).estimate key :=
  (le_estimate_addAll_iff hd hk).2 fun row _ => count_le_sharing _ keys key row

theorem estimate_eq_count (hk : keys.length ≤ Numeral.maxWord) {key : κ} {row : Nat}
    (hr : row < depth)
    (h : (empty width depth hash).sharing keys key row = keys.count key) :
    ((empty width depth hash).addAll keys).estimate key = keys.count key :=
  Nat.le_antisymm (h ▸ estimate_le_sharing hk key hr)
    (count_le_estimate (Nat.zero_lt_of_lt hr) hk key)

end Run

end TrafficMonitor.Sketch.CountMin
