import TrafficMonitor.Decimal.Shortest
import TrafficMonitor.Document.Value
import TrafficMonitor.Toml.Text

namespace TrafficMonitor.Toml

open Document Decimal

def hexDigit (n : Nat) : Char :=
  if n < 10 then Char.ofNat ('0'.toNat + n) else Char.ofNat ('A'.toNat + n - 10)

def numbered (c : Char) : List Char :=
  '\\' :: 'u' :: [4096, 256, 16, 1].map fun place => hexDigit (c.toNat / place % 16)

def escaped (c : Char) : List Char :=
  if c == '\x08' then ['\\', 'b']
  else if c == '\t' then ['\\', 't']
  else if c == '\n' then ['\\', 'n']
  else if c == '\x0c' then ['\\', 'f']
  else if c == '\r' then ['\\', 'r']
  else if c == '\\' then ['\\', '\\']
  else if c == '"' || !isPlain c then numbered c
  else [c]

def escapedLines : Nat → List Char → List Char
  | _, [] => []
  | quotes, c :: cs =>
    if c = '"' then if quotes < 2 then c :: escapedLines (quotes + 1) cs
      else numbered c ++ escapedLines 0 cs
    else if c = '\n' then c :: escapedLines 0 cs
    else escaped c ++ escapedLines 0 cs

def longestRun (c : Char) (cs : List Char) : Nat :=
  (cs.foldl (fun (run, longest) d =>
    let run := if d = c then run + 1 else 0
    (run, max run longest)) (0, 0)).2

def inTriples (quote : Char) (several : Bool) (body : List Char) : List Char :=
  let mark := List.replicate 3 quote
  mark ++ (if several then ['\n'] else []) ++ body ++ mark

def stringChars (cs : List Char) : List Char :=
  let several := cs.contains '\n'
  let control := cs.any fun c => !isPlain c && c != '\n'
  let backslash := cs.contains '\\'
  let doubles := longestRun '"' cs
  let singles := longestRun '\'' cs
  if !control && !backslash && doubles = 0 && !several then '"' :: cs.flatMap escaped ++ ['"']
  else if !control && singles = 0 && !several then '\'' :: cs ++ ['\'']
  else if !control && !backslash && doubles ≤ 2 then
    inTriples '"' several (escapedLines 0 cs)
  else if !control && singles ≤ 2 then inTriples '\'' several cs
  else if several then inTriples '"' true (escapedLines 0 cs)
  else '"' :: cs.flatMap escaped ++ ['"']

def realText (x : Float) : String :=
  match Binary64.parts x with
  | .nan => "nan"
  | .infinite negative => if negative then "-inf" else "inf"
  | .finite .. =>
    let text := Shortest.render x
    if text.toList.contains '.' then text else text ++ ".0"

def scalarText? : Scalar → Option String
  | .text s => some (.ofList (stringChars s.toList))
  | .whole n => if -2 ^ 63 ≤ n ∧ n < 2 ^ 63 then some (toString n) else none
  | .real x => some (realText x)
  | .flag b => some (if b then "true" else "false")
  | .moment written => some written

def render? (entries : List (String × Scalar)) : Option String := do
  let lines ← entries.mapM fun (key, value) => (scalarText? value).map (key ++ " = " ++ · ++ "\n")
  some ("".intercalate lines)

end TrafficMonitor.Toml
