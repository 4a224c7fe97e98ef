import TrafficMonitor.Toml.Number
import TrafficMonitor.Toml.Tree

namespace TrafficMonitor.Toml

open Document

def dropComment : List Char → List Char
  | '#' :: cs => cs.dropWhile isPlain
  | cs => cs

def skipLines : Nat → List Char → List Char
  | 0, cs => cs
  | fuel + 1, cs =>
    let cs := dropComment (cs.dropWhile isBlank)
    match newline? cs with
    | some rest => skipLines fuel rest
    | none => cs

def skipGaps (cs : List Char) : List Char := skipLines (cs.length + 1) cs

def items? (item : Reader Value) : Nat → Reader (List Value)
  | 0, _ => none
  | fuel + 1, cs =>
    match skipGaps cs with
    | ']' :: rest => some ([], rest)
    | cs =>
      match item cs with
      | none => none
      | some (value, rest) =>
        match skipGaps rest with
        | ',' :: rest => (items? item fuel rest).map fun (values, rest) => (value :: values, rest)
        | ']' :: rest => some ([value], rest)
        | _ => none

def entry? (item : Reader Value) (cs : List Char) : Option ((List String × Value) × List Char) := do
  let (keys, cs) ← key? cs
  let cs ← skip? '=' cs
  let (value, cs) ← item (cs.dropWhile isBlank)
  some ((keys, value), cs.dropWhile isBlank)

def braced? (item : Reader Value) : Nat → Node → Reader Node
  | 0, _, _ => none
  | fuel + 1, table, cs =>
    match entry? item cs with
    | none => none
    | some ((keys, value), rest) =>
      match addEntry keys value table with
      | none => none
      | some table =>
        match rest with
        | ',' :: rest => braced? item fuel table rest
        | '\x7d' :: rest => some (table, rest)
        | _ => none

def maxDepth : Nat := 79

def value? : Nat → Reader Value
  | 0, cs => (scalar? cs).map fun (s, rest) => (.scalar s, rest)
  | depth + 1, cs =>
    match cs with
    | '[' :: rest =>
      (items? (value? depth) (rest.length + 1) rest).map fun (values, rest) => (.list values, rest)
    | '\x7b' :: rest =>
      match rest.dropWhile isBlank with
      | '\x7d' :: rest => some (.table [], rest)
      | inner =>
        (braced? (value? depth) (inner.length + 1) emptyTable inner).map fun (table, rest) =>
          (table.value, rest)
    | cs => (scalar? cs).map fun (s, rest) => (.scalar s, rest)

def endLine? (cs : List Char) : Option (List Char) :=
  match dropComment (cs.dropWhile isBlank) with
  | [] => some []
  | cs => newline? cs

structure Reading where
  root : Node
  header : List String

def header? (cs : List Char) : Option ((Bool × List String) × List Char) :=
  match cs with
  | '[' :: '[' :: rest => do
    let (keys, rest) ← key? rest
    let rest ← skip? ']' rest
    let rest ← skip? ']' rest
    some ((true, keys), rest)
  | '[' :: rest => do
    let (keys, rest) ← key? rest
    let rest ← skip? ']' rest
    some ((false, keys), rest)
  | _ => none

def line? (reading : Reading) (cs : List Char) : Option (Reading × List Char) :=
  match cs with
  | '[' :: _ => do
    let ((list, keys), rest) ← header? cs
    let root ← openHeader list keys reading.root
    let rest ← endLine? rest
    some (⟨root, keys⟩, rest)
  | '#' :: _ | '\n' :: _ | '\r' :: _ => (endLine? cs).map fun rest => (reading, rest)
  | _ => do
    let ((keys, value), rest) ← entry? (value? maxDepth) cs
    let root ← within false (addEntry keys value) reading.header reading.root
    let rest ← endLine? rest
    some (⟨root, reading.header⟩, rest)

def lines? : Nat → Reading → List Char → Option Reading
  | 0, _, _ => none
  | fuel + 1, reading, cs =>
    match cs.dropWhile isBlank with
    | [] => some reading
    | cs =>
      match line? reading cs with
      | none => none
      | some (reading, rest) => lines? fuel reading rest

def parse? (text : String) : Option Value :=
  let cs := match text.toList with
    | '\ufeff' :: cs => cs
    | cs => cs
  (lines? (cs.length + 1) ⟨emptyTable, []⟩ cs).map fun reading => reading.root.value

end TrafficMonitor.Toml
