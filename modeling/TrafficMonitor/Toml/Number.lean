import TrafficMonitor.Decimal.Literal
import TrafficMonitor.Document.Value
import TrafficMonitor.Time.Civil
import TrafficMonitor.Toml.Text

namespace TrafficMonitor.Toml

open Document Decimal

def digitRun (isDigit : Char → Bool) : List Char → List Char × List Char
  | [] => ([], [])
  | c :: cs =>
    if isDigit c then
      let (digits, rest) := digitRun isDigit cs
      (c :: digits, rest)
    else if c == '_' && (cs.head?.map isDigit).getD false then digitRun isDigit cs
    else ([], c :: cs)

def digits? (isDigit : Char → Bool) (cs : List Char) : Option (List Char × List Char) :=
  if (cs.head?.map isDigit).getD false then some (digitRun isDigit cs) else none

def wholePart? : Reader (List Char)
  | '0' :: cs => some (['0'], cs)
  | cs => digits? Char.isDigit cs

def exponent? : Reader Int
  | [] => none
  | c :: cs =>
    if c == 'e' || c == 'E' then
      let (negative, rest) := Literal.splitSign cs
      (digits? Char.isDigit rest).map fun (digits, rest) =>
        let n : Int := Text.Numeral.value digits
        (if negative then -n else n, rest)
    else none

def fraction? : Reader (List Char)
  | '.' :: cs => digits? Char.isDigit cs
  | _ => none

def decimal? (cs : List Char) : Option (Float × List Char) := do
  let (negative, cs) := Literal.splitSign cs
  let (whole, cs) ← wholePart? cs
  match fraction? cs with
  | some (fraction, cs) =>
    let (exponent, cs) := (exponent? cs).getD (0, cs)
    some (Literal.nearest negative whole fraction exponent, cs)
  | none =>
    let (exponent, cs) ← exponent? cs
    some (Literal.nearest negative whole [] exponent, cs)

def special? (cs : List Char) : Option (Float × List Char) :=
  match Literal.splitSign cs with
  | (negative, 'i' :: 'n' :: 'f' :: rest) =>
    some (Binary64.nearest negative (2 ^ 1024) 1, rest)
  | (_, 'n' :: 'a' :: 'n' :: rest) => some (0.0 / 0.0, rest)
  | _ => none

def overflows (x : Float) : Bool := Binary64.parts x == .infinite false

def isOctal (c : Char) : Bool := '0' ≤ c && c ≤ '7'

def isBinary (c : Char) : Bool := c == '0' || c == '1'

def valueIn (base : Nat) (digits : List Char) : Nat :=
  digits.foldl (fun n c => base * n + (hexValue? c).getD 0) 0

def anyWhole? : Reader Int
  | '0' :: 'x' :: cs => (digits? (hexValue? · |>.isSome) cs).map fun (ds, cs) => (valueIn 16 ds, cs)
  | '0' :: 'o' :: cs => (digits? isOctal cs).map fun (ds, cs) => (valueIn 8 ds, cs)
  | '0' :: 'b' :: cs => (digits? isBinary cs).map fun (ds, cs) => (valueIn 2 ds, cs)
  | cs =>
    let (negative, cs) := Literal.splitSign cs
    (wholePart? cs).map fun (digits, cs) =>
      let n : Int := Text.Numeral.value digits
      (if negative then -n else n, cs)

def whole? (cs : List Char) : Option (Int × List Char) :=
  (anyWhole? cs).filter fun (n, _) => -2 ^ 63 ≤ n && n < 2 ^ 63

def field? (width low high : Nat) (cs : List Char) : Option (Nat × List Char) :=
  let digits := cs.take width
  let n := Text.Numeral.value digits
  if digits.length = width ∧ digits.all Char.isDigit ∧ low ≤ n ∧ n ≤ high then
    some (n, cs.drop width)
  else none

def skip? (c : Char) : List Char → Option (List Char)
  | [] => none
  | d :: cs => if d = c then some cs else none

def afterFraction (cs : List Char) : List Char :=
  match cs with
  | '.' :: c :: rest => if c.isDigit then rest.dropWhile Char.isDigit else cs
  | _ => cs

def afterTime? (cs : List Char) : Option (List Char) := do
  let (_, cs) ← field? 2 0 23 cs
  let cs ← skip? ':' cs
  let (_, cs) ← field? 2 0 59 cs
  let cs ← skip? ':' cs
  let (_, cs) ← field? 2 0 60 cs
  some (afterFraction cs)

def afterOffset (cs : List Char) : List Char :=
  let clock (rest : List Char) : Option (List Char) := do
    let (_, rest) ← field? 2 0 23 rest
    let rest ← skip? ':' rest
    let (_, rest) ← field? 2 0 59 rest
    some rest
  match cs with
  | 'Z' :: rest | 'z' :: rest => rest
  | '+' :: rest | '-' :: rest => (clock rest).getD cs
  | _ => cs

def afterDate? (cs : List Char) : Option (List Char) := do
  let (year, cs) ← field? 4 0 9999 cs
  let cs ← skip? '-' cs
  let (month, cs) ← field? 2 1 12 cs
  let cs ← skip? '-' cs
  let (_, cs) ← field? 2 1 (Time.Civil.daysInMonth year month) cs
  some cs

def afterMoment? (cs : List Char) : Option (List Char) :=
  match afterDate? cs with
  | none => afterTime? cs
  | some rest =>
    match rest with
    | 'T' :: more | 't' :: more | ' ' :: more => some (((afterTime? more).map afterOffset).getD rest)
    | _ => some rest

def moment? (cs : List Char) : Option (String × List Char) :=
  (afterMoment? cs).map fun rest => (.ofList (cs.take (cs.length - rest.length)), rest)

def number? (cs : List Char) : Option (Scalar × List Char) :=
  match moment? cs with
  | some (written, rest) => some (.moment written, rest)
  | none =>
    match decimal? cs with
    | some (x, rest) => if overflows x then none else some (.real x, rest)
    | none =>
      match special? cs with
      | some (x, rest) => some (.real x, rest)
      | none => (whole? cs).map fun (n, rest) => (.whole n, rest)

def scalar? (cs : List Char) : Option (Scalar × List Char) :=
  match cs with
  | '"' :: _ | '\'' :: _ => (string? cs).map fun (text, rest) => (.text (.ofList text), rest)
  | 't' :: 'r' :: 'u' :: 'e' :: rest => some (.flag true, rest)
  | 'f' :: 'a' :: 'l' :: 's' :: 'e' :: rest => some (.flag false, rest)
  | _ => number? cs

end TrafficMonitor.Toml
