import TrafficMonitor.Power

namespace TrafficMonitor.Decimal.Binary64

inductive Parts where
  | nan
  | infinite (negative : Bool)
  | finite (negative : Bool) (significand : Nat) (exponent : Int)
  deriving DecidableEq, Repr

def leastExponent : Int := -1074

def parts (x : Float) : Parts :=
  let bits := x.toBits.toNat
  let negative := decide (2 ^ 63 ≤ bits)
  let exponent := bits / 2 ^ 52 % 2 ^ 11
  let fraction := bits % 2 ^ 52
  if exponent = 2047 then
    if fraction = 0 then .infinite negative else .nan
  else if exponent = 0 then .finite negative fraction leastExponent
  else .finite negative (2 ^ 52 + fraction) (Int.ofNat exponent - 1075)

def divHalfEven (num den : Nat) : Nat :=
  let q := num / den
  let r := num % den
  if 2 * r < den then q
  else if den < 2 * r then q + 1
  else q + q % 2

def roundSignificant (n : Nat) : Nat :=
  if n < 2 ^ 53 then n
  else
    let step := 2 ^ (n.log2 - 52)
    divHalfEven n step * step

def scaledHalfEven (num den : Nat) (exponent : Int) : Nat :=
  if 0 ≤ exponent then divHalfEven num (den * 2 ^ exponent.toNat)
  else divHalfEven (num * 2 ^ (-exponent).toNat) den

def floorLog (num den : Nat) : Int :=
  let k : Int := (num.log2 : Int) - den.log2
  let reached := if 0 ≤ k then den * 2 ^ k.toNat ≤ num else den ≤ num * 2 ^ (-k).toNat
  if reached then k else k - 1

/-- The bits of the nonnegative number nearest to `num / den`, ties to the even significand.
A carry out of the fraction moves into the exponent, which is the next number up. -/
def nearestBits (num den : Nat) : Nat :=
  if num = 0 ∨ den = 0 then 0
  else
    let exponent := max (floorLog num den - 52) leastExponent
    let significand := scaledHalfEven num den exponent
    let bits :=
      if significand < 2 ^ 52 then significand
      else (exponent + 1075).toNat * 2 ^ 52 + (significand - 2 ^ 52)
    min bits (2047 * 2 ^ 52)

def nearest (negative : Bool) (num den : Nat) : Float :=
  Float.ofBits (nearestBits num den + if negative then 2 ^ 63 else 0).toUInt64

def ofCount (n : Nat) : Float := n.toUInt64.toFloat

end TrafficMonitor.Decimal.Binary64
