import TrafficMonitor.Decimal.Binary64
import TrafficMonitor.Text.Numeral

namespace TrafficMonitor.Decimal.Fixed

open Binary64 Text

def units (places significand : Nat) (exponent : Int) : Nat :=
  if 0 ≤ exponent then significand * 2 ^ exponent.toNat * 10 ^ places
  else divHalfEven (significand * 10 ^ places) (2 ^ (-exponent).toNat)

def ofUnits (places n : Nat) : String :=
  if places = 0 then toString n
  else toString (n / 10 ^ places) ++ "." ++ Numeral.padded places (n % 10 ^ places)

def signed (negative : Bool) (text : String) : String := if negative then "-" ++ text else text

def render (places : Nat) (x : Float) : String :=
  match parts x with
  | .nan => "NaN"
  | .infinite negative => signed negative "inf"
  | .finite negative significand exponent =>
    signed negative (ofUnits places (units places significand exponent))

end TrafficMonitor.Decimal.Fixed
