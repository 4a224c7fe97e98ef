import TrafficMonitor.Decimal.Binary64
import TrafficMonitor.Text.Numeral

namespace TrafficMonitor.Time

structure Duration where
  nanoseconds : Nat
  deriving DecidableEq, Repr, Inhabited

namespace Duration

open Text

def nanosPerSecond : Nat := 10 ^ 9

def nanosPerMilli : Nat := 10 ^ 6

def ofSeconds (n : Nat) : Duration := ⟨n * nanosPerSecond⟩

def ofMillis (n : Nat) : Duration := ⟨n * nanosPerMilli⟩

def ofParts (seconds nanos : Nat) : Duration := ⟨seconds * nanosPerSecond + nanos⟩

def longest : Duration := ofParts Numeral.maxWord (nanosPerSecond - 1)

def wholeSeconds (d : Duration) : Nat := d.nanoseconds / nanosPerSecond

def wholeMillis (d : Duration) : Nat := d.nanoseconds / nanosPerMilli

def subsecond (d : Duration) : Nat := d.nanoseconds % nanosPerSecond

def isZero (d : Duration) : Bool := d.nanoseconds == 0

def timesAtMost (d : Duration) (n : Nat) : Duration := ⟨min (d.nanoseconds * n) longest.nanoseconds⟩

def seconds (d : Duration) : Float :=
  Decimal.Binary64.ofCount d.wholeSeconds + Decimal.Binary64.ofCount d.subsecond / 1e9

def decimal (places whole fraction : Nat) : String :=
  let digits := (Numeral.padded places fraction).toList
  let kept := (digits.reverse.dropWhile (· == '0')).reverse
  if fraction = 0 then toString whole else toString whole ++ "." ++ String.ofList kept

def text (d : Duration) : String :=
  let n := d.nanoseconds
  if nanosPerSecond ≤ n then decimal 9 (n / nanosPerSecond) (n % nanosPerSecond) ++ "s"
  else if nanosPerMilli ≤ n then decimal 6 (n / nanosPerMilli) (n % nanosPerMilli) ++ "ms"
  else if 1000 ≤ n then decimal 3 (n / 1000) (n % 1000) ++ "µs"
  else toString n ++ "ns"

def compact (d : Duration) : String :=
  let s := d.wholeSeconds
  if s = 0 then toString d.wholeMillis ++ "ms"
  else if 3600 ≤ s then
    toString (s / 3600) ++ "h" ++ toString (s % 3600 / 60) ++ "m" ++ toString (s % 60) ++ "s"
  else if 60 ≤ s then toString (s / 60) ++ "m" ++ toString (s % 60) ++ "s"
  else toString s ++ "s"

end Duration

end TrafficMonitor.Time
