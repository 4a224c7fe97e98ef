import TrafficMonitor.Decimal.Binary64
import TrafficMonitor.Text.Numeral

namespace TrafficMonitor.Decimal.Literal

open Text.Numeral

def nearest (negative : Bool) (whole fraction : List Char) (exponent : Int) : Float :=
  let digits := (whole ++ fraction).dropWhile (· == '0')
  let place := exponent - fraction.length
  let top := place + digits.length
  if digits.isEmpty || top < -330 then Binary64.nearest negative 0 1
  else if 310 < top then Binary64.nearest negative (2 ^ 1024) 1
  else if 0 ≤ place then Binary64.nearest negative (value digits * 10 ^ place.toNat) 1
  else Binary64.nearest negative (value digits) (10 ^ (-place).toNat)

def splitSign : List Char → Bool × List Char
  | '-' :: cs => (true, cs)
  | '+' :: cs => (false, cs)
  | cs => (false, cs)

def exponent? : List Char → Option Int
  | [] => some 0
  | c :: cs =>
    if c == 'e' || c == 'E' then
      let (negative, digits) := splitSign cs
      (ofDigits? digits).map fun n => if negative then -(n : Int) else n
    else none

def parse? (text : String) : Option Float :=
  let (negative, cs) := splitSign text.toList
  let name := cs.map Char.toLower
  if name = "inf".toList || name = "infinity".toList then
    some (Binary64.nearest negative (2 ^ 1024) 1)
  else if name = "nan".toList then some (0.0 / 0.0)
  else
    let (whole, rest) := cs.span Char.isDigit
    let (fraction, rest) :=
      match rest with
      | '.' :: more => more.span Char.isDigit
      | _ => ([], rest)
    if whole.isEmpty && fraction.isEmpty then none
    else (exponent? rest).map (nearest negative whole fraction)

end TrafficMonitor.Decimal.Literal
