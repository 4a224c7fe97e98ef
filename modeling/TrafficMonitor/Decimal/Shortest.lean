import TrafficMonitor.Decimal.Fixed

/-!
The shortest decimal text of a number: the fewest digits that still name it among all binary64
numbers, the nearest such decimal where there is a choice, written without an exponent.
-/

namespace TrafficMonitor.Decimal.Shortest

open Binary64

/-- A positive number with the reals that round to it, as numerators over a common denominator.
The bounds themselves round to the number if `closed`. -/
structure Neighbourhood where
  value : Nat
  low : Nat
  high : Nat
  den : Nat
  closed : Bool

def neighbourhood (significand : Nat) (exponent : Int) : Neighbourhood :=
  let below := if significand = 2 ^ 52 ∧ leastExponent < exponent then 1 else 2
  let scale := if 2 ≤ exponent then 2 ^ (exponent - 2).toNat else 1
  { value := 4 * significand * scale
    low := (4 * significand - below) * scale
    high := (4 * significand + 2) * scale
    den := if 2 ≤ exponent then 1 else 2 ^ (2 - exponent).toNat
    closed := significand % 2 == 0 }

def digitCount (n : Nat) : Nat := if n = 0 then 0 else (Nat.toDigits 10 n).length

def magnitude (num den : Nat) : Int :=
  if den ≤ num then digitCount (num / den)
  else 1 - (digitCount ((den + num - 1) / num - 1) : Int)

structure Scientific where
  digits : Nat
  place : Int
  deriving DecidableEq, Repr

def onGrid? (n : Neighbourhood) (place : Int) : Option Scientific :=
  let up := if 0 ≤ place then 1 else 10 ^ (-place).toNat
  let step := if 0 ≤ place then n.den * 10 ^ place.toNat else n.den
  let value := n.value * up
  let digits := value / step
  let inside (x : Nat) : Bool :=
    if n.closed then n.low * up ≤ x && x ≤ n.high * up else n.low * up < x && x < n.high * up
  let lower := inside (digits * step)
  let upper := inside ((digits + 1) * step)
  let upperNearer := step ≤ 2 * (value - digits * step)
  if upper && (upperNearer || !lower) then some ⟨digits + 1, place⟩
  else if lower then some ⟨digits, place⟩
  else none

def shortest (significand : Nat) (exponent : Int) : Scientific :=
  let n := neighbourhood significand exponent
  let k := magnitude n.value n.den
  ((List.range 17).findSome? fun (i : Nat) => onGrid? n (k - (i + 1))).getD ⟨n.value / n.den, 0⟩

def Scientific.text (d : Scientific) : String :=
  let digits := Nat.toDigits 10 d.digits
  if 0 ≤ d.place then String.ofList (digits ++ List.replicate d.place.toNat '0')
  else
    let places := (-d.place).toNat
    let padded := List.replicate (places + 1 - digits.length) '0' ++ digits
    let whole := padded.take (padded.length - places)
    let fraction := padded.drop (padded.length - places)
    let kept := (fraction.reverse.dropWhile (· == '0')).reverse
    if kept.isEmpty then String.ofList whole
    else String.ofList whole ++ "." ++ String.ofList kept

def render (x : Float) : String :=
  match parts x with
  | .nan => "NaN"
  | .infinite negative => Fixed.signed negative "inf"
  | .finite negative significand exponent =>
    Fixed.signed negative
      (if significand = 0 then "0" else (shortest significand exponent).text)

end TrafficMonitor.Decimal.Shortest
