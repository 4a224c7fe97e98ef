import TrafficMonitor.Log.Stamp
import TrafficMonitor.Power
import TrafficMonitor.Text.LineEnd

/-!
Access log records in Common Log Format: `host ident user [date] "request" status bytes`. Whatever
follows the bytes is not looked at, so the combined format is read as well.
-/

namespace TrafficMonitor.Log

open Time Text

structure Record where
  remoteAddr : String
  identity : String
  userId : String
  timestamp : Option ZonedInstant
  request : String
  status : Nat
  size : Nat
  deriving DecidableEq, Repr

namespace Record

def field? (cs : List Char) : Option (List Char × List Char) :=
  match cs.span fun c => !CharClass.isSpace c with
  | ([], _) => none
  | (text, ' ' :: rest) => some (text, rest)
  | _ => none

def date? (cs : List Char) : Option (List Char × List Char) :=
  match cs.span fun c => CharClass.isWord c || c == ':' || c == '/' with
  | ([], _) => none
  | (day, space :: sign :: a :: b :: c :: d :: rest) =>
    if CharClass.isSpace space && (sign == '+' || sign == '-') &&
        [a, b, c, d].all CharClass.isDigit then
      some (day ++ [space, sign, a, b, c, d], rest)
    else none
  | _ => none

def status? : List Char → Option (List Char × List Char)
  | '-' :: rest => some (['-'], rest)
  | a :: b :: c :: rest =>
    if [a, b, c].all CharClass.isDigit then some ([a, b, c], rest) else none
  | _ => none

def size? : List Char → Option (List Char)
  | '-' :: _ => some ['-']
  | cs =>
    let digits := cs.takeWhile CharClass.isDigit
    if digits.isEmpty then none else some digits

def response? (cs : List Char) : Option (List Char × List Char) := do
  let cs ← Stamp.expect? ' ' cs
  let (status, cs) ← status? cs
  let cs ← Stamp.expect? ' ' cs
  let size ← size? cs
  some (status, size)

/-- The request and the response after it. A request may hold quotes: it ends at the last quote of
its line that a response follows. -/
def request? : List Char → Option (List Char × List Char × List Char)
  | [] => none
  | c :: cs =>
    if c = '\n' then none
    else
      match request? cs with
      | some (request, response) => some (c :: request, response)
      | none => if c = '"' then (response? cs).map fun response => ([], response) else none

def orEmpty (cs : List Char) : String := if cs = ['-'] then "" else String.ofList cs

def orZero (limit : Nat) (cs : List Char) : Nat := (Numeral.ofDigitsUpTo? limit cs).getD 0

def maxStatus : Nat := 2 ^ 16 - 1

/-- Reads one line, `none` if it is not in Common Log Format. Fields that have the right shape but
no value, such as an impossible date, do not reject it. -/
def parseChars? (line : List Char) : Option Record := do
  let (host, cs) ← field? (trimLineEnds line)
  let (identity, cs) ← field? cs
  let (user, cs) ← field? cs
  let cs ← Stamp.expect? '[' cs
  let (date, cs) ← date? cs
  let cs ← Stamp.expect? ']' cs
  let cs ← Stamp.expect? ' ' cs
  let cs ← Stamp.expect? '"' cs
  let (request, status, size) ← request? cs
  some
    { remoteAddr := String.ofList host
      identity := orEmpty identity
      userId := orEmpty user
      timestamp := (Stamp.parse? date).map Stamp.toZoned
      request := String.ofList request
      status := orZero maxStatus status
      size := orZero Numeral.maxWord size }

def parse? (line : String) : Option Record := parseChars? line.toList

end Record

end TrafficMonitor.Log
