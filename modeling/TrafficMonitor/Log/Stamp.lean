import TrafficMonitor.Text.CharClass
import TrafficMonitor.Time.Instant

namespace TrafficMonitor.Log

open Time Text

structure Stamp where
  date : Civil
  hour : Nat
  minute : Nat
  second : Nat
  westward : Bool
  offsetHours : Nat
  offsetMinutes : Nat
  deriving DecidableEq, Repr

namespace Stamp

def monthNames : List String :=
  ["Jan", "Feb", "Mar", "Apr", "May", "Jun", "Jul", "Aug", "Sep", "Oct", "Nov", "Dec"]

def month? (letters : List Char) : Option Nat :=
  let lower := letters.map Char.toLower
  (monthNames.findIdx? fun name => name.toList.map Char.toLower == lower).map (· + 1)

def number? (width : Nat) (cs : List Char) : Option (Nat × List Char) :=
  let digits := (cs.take width).takeWhile Char.isDigit
  if digits.isEmpty then none else some (Numeral.value digits, cs.drop digits.length)

def expect? (c : Char) : List Char → Option (List Char)
  | [] => none
  | d :: cs => if d = c then some cs else none

def offset? : List Char → Option (Bool × Nat × Nat)
  | [sign, h1, h2, m1, m2] =>
    if (sign = '+' ∨ sign = '-') ∧ [h1, h2, m1, m2].all Char.isDigit then
      some (sign == '-', Numeral.value [h1, h2], Numeral.value [m1, m2])
    else none
  | _ => none

def isValid (s : Stamp) : Bool :=
  s.date.isValid && s.hour < 24 && s.minute < 60 && s.second ≤ 60 && s.offsetHours < 24 &&
    s.offsetMinutes < 60

def parse? (cs : List Char) : Option Stamp := do
  let (day, cs) ← number? 2 cs
  let cs ← expect? '/' cs
  let month ← month? (cs.take 3)
  let cs ← expect? '/' (cs.drop 3)
  let (year, cs) ← number? 4 cs
  let cs ← expect? ':' cs
  let (hour, cs) ← number? 2 cs
  let cs ← expect? ':' cs
  let (minute, cs) ← number? 2 cs
  let cs ← expect? ':' cs
  let (second, cs) ← number? 2 cs
  let (westward, offsetHours, offsetMinutes) ← offset? (cs.dropWhile CharClass.isSpace)
  let stamp : Stamp :=
    ⟨⟨year, month, day⟩, hour, minute, second, westward, offsetHours, offsetMinutes⟩
  if stamp.isValid then some stamp else none

def offsetSeconds (s : Stamp) : Int :=
  let seconds : Int := ((s.offsetHours * 60 + s.offsetMinutes) * 60 : Nat)
  if s.westward then -seconds else seconds

def toZoned (s : Stamp) : ZonedInstant :=
  let secondOfDay : Int := ((s.hour * 60 + s.minute) * 60 + min s.second 59 : Nat)
  let seconds := s.date.toDays * 86400 + secondOfDay - s.offsetSeconds
  ⟨⟨seconds, if s.second = 60 then Duration.nanosPerSecond else 0⟩, s.offsetSeconds⟩

def render (s : Stamp) : String :=
  let two := Numeral.padded 2
  two s.date.day ++ "/" ++ monthNames.getD (s.date.month - 1) "" ++ "/" ++
    Numeral.padded 4 s.date.year.toNat ++ ":" ++ two s.hour ++ ":" ++ two s.minute ++ ":" ++
    two s.second ++ " " ++ (if s.westward then "-" else "+") ++ two s.offsetHours ++
    two s.offsetMinutes

end Stamp

end TrafficMonitor.Log
