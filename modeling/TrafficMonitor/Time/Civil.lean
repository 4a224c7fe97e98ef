import TrafficMonitor.Text.Numeral

namespace TrafficMonitor.Time

structure Civil where
  year : Int
  month : Nat
  day : Nat
  deriving DecidableEq, Repr

namespace Civil

open Text

def isLeap (year : Int) : Bool := year % 4 == 0 && (year % 100 != 0 || year % 400 == 0)

def daysInMonth (year : Int) (month : Nat) : Nat :=
  if month = 2 then if isLeap year then 29 else 28
  else if month = 4 ∨ month = 6 ∨ month = 9 ∨ month = 11 then 30
  else 31

def isValid (c : Civil) : Bool :=
  1 ≤ c.month && c.month ≤ 12 && 1 ≤ c.day && c.day ≤ daysInMonth c.year c.month

def daysBeforeYear (y : Int) : Int := 365 * y + y / 4 - y / 100 + y / 400

def daysBeforeMonth (m : Nat) : Nat := (153 * m + 2) / 5

def toDays (c : Civil) : Int :=
  let y := if c.month ≤ 2 then c.year - 1 else c.year
  let m := (c.month + 9) % 12
  daysBeforeYear y + daysBeforeMonth m + c.day - 1 - 719468

def ofDays (days : Int) : Civil :=
  let n := days + 719468
  let era := n / 146097
  let dayOfEra := (n % 146097).toNat
  let yearOfEra := (dayOfEra - dayOfEra / 1460 + dayOfEra / 36524 - dayOfEra / 146096) / 365
  let dayOfYear := dayOfEra - (365 * yearOfEra + yearOfEra / 4 - yearOfEra / 100)
  let m := (5 * dayOfYear + 2) / 153
  let month := if m < 10 then m + 3 else m - 9
  let year := era * 400 + yearOfEra
  ⟨if month ≤ 2 then year + 1 else year, month, dayOfYear - daysBeforeMonth m + 1⟩

def yearText (year : Int) : String :=
  if year < 0 then "-" ++ Numeral.padded 4 year.natAbs
  else if year ≤ 9999 then Numeral.padded 4 year.natAbs
  else "+" ++ toString year.natAbs

end Civil

end TrafficMonitor.Time
