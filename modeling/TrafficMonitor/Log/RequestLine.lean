import TrafficMonitor.Text.CharClass

/-!
Request lines such as `GET /index.html?x=1 HTTP/1.1`. The line is looked for from the left: it may
start at any word of the text, and it ends with the text's first line.
-/

namespace TrafficMonitor.Log

open Text.CharClass

structure RequestLine where
  method : String
  path : String
  query : String
  protocol : String
  deriving DecidableEq, Repr

namespace RequestLine

def piecesFrom : Bool → List Char → Bool
  | atStart, [] => !atStart
  | atStart, c :: cs => if c = '&' then !atStart && piecesFrom true cs else piecesFrom false cs

def isQuery : List Char → Bool
  | [] => true
  | c :: cs => (c == '?' || c == '&') && piecesFrom true cs

def splitTarget? : List Char → Option (List Char × List Char)
  | [] => some ([], [])
  | c :: cs =>
    if c = '?' then if isQuery (c :: cs) then some ([], c :: cs) else none
    else
      match splitTarget? cs with
      | some (path, query) => some (c :: path, query)
      | none => if c = '&' ∧ isQuery (c :: cs) then some ([], c :: cs) else none

def target? : List Char → Option (List Char × List Char)
  | [] => none
  | c :: cs =>
    if c = '?' then none else (splitTarget? cs).map fun (path, query) => (c :: path, query)

def protocol? (cs : List Char) : Option (List Char) :=
  if "HTTP/".toList.isPrefixOf cs then some (cs.takeWhile (· ≠ '\n')) else none

def word? (cs : List Char) : Option (List Char × List Char) :=
  let (word, rest) := cs.span fun c => !isSpace c
  let (gap, rest) := rest.span isSpace
  if word.isEmpty || gap.isEmpty then none else some (word, rest)

def here? (cs : List Char) : Option RequestLine := do
  let (method, cs) ← word? cs
  let (target, cs) ← word? cs
  let (path, query) ← target? target
  let protocol ← protocol? cs
  some ⟨.ofList method, .ofList path, .ofList query, .ofList protocol⟩

def search? : Bool → List Char → Option RequestLine
  | _, [] => none
  | atStart, c :: cs =>
    if isSpace c then search? true cs
    else
      match if atStart then here? (c :: cs) else none with
      | some line => some line
      | none => search? false cs

def parse? (request : String) : Option RequestLine := search? true request.toList

end RequestLine

end TrafficMonitor.Log
