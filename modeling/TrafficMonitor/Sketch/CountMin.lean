import Std.Data.HashMap
import TrafficMonitor.Decimal.Binary64
import TrafficMonitor.Text.Numeral

/-!
The count-min sketch: rows of counters in which each key owns one cell a row. Keys may share cells,
so the least of a key's cells is never below the number of times it was added.
-/

namespace TrafficMonitor.Sketch

open Text

structure CountMin (κ : Type) where
  width : Nat
  depth : Nat
  width_pos : 0 < width
  hash : κ → UInt64
  cells : Std.HashMap (Nat × Nat) Nat

namespace CountMin

variable {κ : Type}

def empty (width depth : Nat) (hash : κ → UInt64) : CountMin κ :=
  { width := max width 1, depth, width_pos := by omega, hash, cells := ∅ }

def ceilAtLeastOne (x : Float) : Nat := max x.ceil.toUInt64.toNat 1

def widthFor (epsilon : Float) : Nat := ceilAtLeastOne (2.718281828459045 / epsilon)

def depthFor (confidence : Float) : Nat := ceilAtLeastOne (Float.log (1.0 / (1.0 - confidence)))

/-- The column of a key in a row: one half of its hash plus the row times the other half, which is
made odd, in 64-bit arithmetic. -/
def column (s : CountMin κ) (key : κ) (row : Nat) : Nat :=
  let h := s.hash key
  let start : UInt64 := h &&& 0xffffffff
  let stride : UInt64 := (h >>> 32) ||| 1
  (start + row.toUInt64 * stride).toNat % s.width

def cell (s : CountMin κ) (key : κ) (row : Nat) : Nat × Nat := (row, s.column key row)

def count (s : CountMin κ) (cell : Nat × Nat) : Nat := s.cells.getD cell 0

def bump (s : CountMin κ) (key : κ) (row : Nat) : CountMin κ :=
  let c := s.cell key row
  { s with cells := s.cells.insert c (min (s.count c + 1) Numeral.maxWord) }

def add (s : CountMin κ) (key : κ) : Nat × CountMin κ :=
  (List.range s.depth).foldl (fun (least, t) row =>
    let t := t.bump key row
    (min least (t.count (t.cell key row)), t)) (Numeral.maxWord, s)

def estimate (s : CountMin κ) (key : κ) : Nat :=
  ((List.range s.depth).map fun row => s.count (s.cell key row)).min?.getD 0

theorem column_lt (s : CountMin κ) (key : κ) (row : Nat) : s.column key row < s.width :=
  Nat.mod_lt _ s.width_pos

end CountMin

end TrafficMonitor.Sketch
