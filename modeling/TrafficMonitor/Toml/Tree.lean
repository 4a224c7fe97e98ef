import TrafficMonitor.Document.Value

/-!
The tables of a TOML document while it is read. A table may come into being on the way to another
one; it can be opened by its own header once after that. A table made by a dotted key can be
extended by dotted keys only.
-/

namespace TrafficMonitor.Toml

open Document

/-- A value, a table, or a list of tables of which the last one is open. A table is implicit until
its header or its braces have been seen, and dotted if a dotted key made it. -/
inductive Node where
  | leaf (value : Value)
  | branch (implicit dotted : Bool) (entries : List (String × Node))
  | group (members : List Node)

abbrev Entries := List (String × Node)

namespace Node

mutual

def value : Node → Value
  | .leaf v => v
  | .branch _ _ entries => .table (entryValues entries)
  | .group members => .list (memberValues members)

def entryValues : List (String × Node) → List (String × Value)
  | [] => []
  | (key, node) :: rest => (key, node.value) :: entryValues rest

def memberValues : List Node → List Value
  | [] => []
  | node :: rest => node.value :: memberValues rest

end

end Node

def emptyTable : Node := .branch false false []

def put (key : String) (node : Node) : Entries → Entries
  | [] => [(key, node)]
  | (k, n) :: rest => if k = key then (key, node) :: rest else (k, n) :: put key node rest

def within (dotted : Bool) (change : Node → Option Node) : List String → Node → Option Node
  | [], node => change node
  | _ :: _, .leaf _ => none
  | _ :: _, .group _ => none
  | key :: path, .branch implicit made entries =>
    let store (node : Node) : Node := .branch implicit made (put key node entries)
    match entries.lookup key with
    | none => (within dotted change path (.branch true dotted [])).map store
    | some (.leaf _) => none
    | some (.branch i d inner) =>
      if dotted && !i then none else (within dotted change path (.branch i d inner)).map store
    | some (.group members) =>
      match members.getLast? with
      | none => none
      | some last =>
        (within dotted change path last).map fun node => store (.group (members.dropLast ++ [node]))

def addLeaf (dotted : Bool) (key : String) (value : Value) : Node → Option Node
  | .branch implicit made entries =>
    if made != dotted || (entries.lookup key).isSome then none
    else some (.branch implicit made (entries ++ [(key, .leaf value)]))
  | _ => none

def addEntry (keys : List String) (value : Value) (table : Node) : Option Node :=
  match keys.getLast? with
  | none => none
  | some key =>
    let path := keys.dropLast
    within (!path.isEmpty) (addLeaf (!path.isEmpty) key value) path table

def openTable (key : String) : Node → Option Node
  | .branch implicit made entries =>
    match entries.lookup key with
    | none => some (.branch implicit made (entries ++ [(key, .branch false false [])]))
    | some (.branch true false inner) =>
      some (.branch implicit made (put key (.branch false false inner) entries))
    | some _ => none
  | _ => none

def openMember (key : String) : Node → Option Node
  | .branch implicit made entries =>
    match entries.lookup key with
    | none => some (.branch implicit made (entries ++ [(key, .group [emptyTable])]))
    | some (.group members) =>
      some (.branch implicit made (put key (.group (members ++ [emptyTable])) entries))
    | some _ => none
  | _ => none

def openHeader (list : Bool) (keys : List String) (root : Node) : Option Node :=
  match keys.getLast? with
  | none => none
  | some key => within false (if list then openMember key else openTable key) keys.dropLast root

end TrafficMonitor.Toml
