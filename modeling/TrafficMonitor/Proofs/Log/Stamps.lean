import TrafficMonitor.Log.Stamp
import TrafficMonitor.Proofs.Time.Calendar
import Mathlib.Data.List.Basic
import Mathlib.Data.List.TakeWhile

namespace TrafficMonitor.Time.ZonedInstant

def localSeconds (z : ZonedInstant) : Int := z.instant.seconds + z.offsetSeconds

def inLeapSecond (z : ZonedInstant) : Bool := Duration.nanosPerSecond ≤ z.instant.nanos

def wholeSecond (z : ZonedInstant) : ZonedInstant :=
  { z with instant.nanos := if z.inLeapSecond then Duration.nanosPerSecond else 0 }

end TrafficMonitor.Time.ZonedInstant

namespace TrafficMonitor.Log.Stamp

open Time Text

def ofZoned (z : ZonedInstant) : Stamp :=
  let secondOfDay := (z.localSeconds % 86400).toNat
  let offset := z.offsetSeconds.natAbs
  { date := Civil.ofDays (z.localSeconds / 86400)
    hour := secondOfDay / 3600
    minute := secondOfDay / 60 % 60
    second := secondOfDay % 60 + if z.inLeapSecond then 1 else 0
    westward := z.offsetSeconds < 0
    offsetHours := offset / 3600
    offsetMinutes := offset / 60 % 60 }

structure Expressible (z : ZonedInstant) : Prop where
  year_nonneg : 0 ≤ (ofZoned z).date.year
  year_le : (ofZoned z).date.year ≤ 9999
  offset_minutes : z.offsetSeconds % 60 = 0
  offset_lt : z.offsetSeconds.natAbs < 86400
  leap_last : z.inLeapSecond = true → z.instant.seconds % 60 = 59

variable {z : ZonedInstant}

theorem Expressible.second_of_leap (h : Expressible z) (hleap : z.inLeapSecond = true) :
    (z.localSeconds % 86400).toNat % 60 = 59 := by
  have := h.offset_minutes
  have := h.leap_last hleap
  simp only [ZonedInstant.localSeconds]
  omega

theorem offsetSeconds_ofZoned (h : Expressible z) : (ofZoned z).offsetSeconds = z.offsetSeconds := by
  have hminutes := h.offset_minutes
  have habs : (z.offsetSeconds.natAbs / 3600 * 60 + z.offsetSeconds.natAbs / 60 % 60) * 60 =
      z.offsetSeconds.natAbs := by omega
  simp only [offsetSeconds, ofZoned, habs, decide_eq_true_eq]
  split <;> omega

theorem second_ofZoned (h : Expressible z) :
    min (ofZoned z).second 59 = (z.localSeconds % 86400).toNat % 60 ∧
      ((ofZoned z).second = 60 ↔ z.inLeapSecond = true) := by
  have hlt : (z.localSeconds % 86400).toNat % 60 < 60 := Nat.mod_lt _ (by decide)
  -- in a leap second the number is 60, but the instant lies in the second before
  cases hleap : z.inLeapSecond with
  | true =>
    have hsecond := h.second_of_leap hleap
    simp [ofZoned, hleap, hsecond]
  | false =>
    simp only [ofZoned, hleap, Bool.false_eq_true, if_false, Nat.add_zero, iff_false]
    omega

theorem toZoned_ofZoned (h : Expressible z) : (ofZoned z).toZoned = z.wholeSecond := by
  obtain ⟨hmin, hsixty⟩ := second_ofZoned h
  have hseconds : (ofZoned z).date.toDays * 86400 +
      ((((ofZoned z).hour * 60 + (ofZoned z).minute) * 60 +
        min (ofZoned z).second 59 : Nat) : Int) - z.offsetSeconds = z.instant.seconds := by
    rw [hmin]
    simp only [ofZoned, Civil.toDays_ofDays, ZonedInstant.localSeconds]
    omega
  simp only [toZoned, offsetSeconds_ofZoned h, hseconds, hsixty, ZonedInstant.wholeSecond]

theorem isValid_ofZoned (h : Expressible z) : (ofZoned z).isValid = true := by
  have hlt := h.offset_lt
  have hsecond : (ofZoned z).second ≤ 60 := by
    have : (z.localSeconds % 86400).toNat % 60 < 60 := Nat.mod_lt _ (by decide)
    simp only [ofZoned]
    split <;> omega
  simp only [isValid, Bool.and_eq_true, decide_eq_true_eq]
  refine ⟨⟨⟨⟨⟨Civil.isValid_ofDays _, ?_⟩, ?_⟩, hsecond⟩, ?_⟩, ?_⟩ <;> simp only [ofZoned] <;> omega

theorem read_then {α β : Type} {x : Option α} {f : α → Option β} {a : α} {b : β} (hx : x = some a)
    (hf : f a = some b) : (x >>= f) = some b := Option.bind_eq_some_iff.2 ⟨a, hx, hf⟩

theorem expect?_cons (c : Char) (cs : List Char) : expect? c (c :: cs) = some cs := if_pos rfl

theorem number?_padded {width n : Nat} (hw : 0 < width) (hn : n < 10 ^ width) (rest : List Char) :
    number? width ((Numeral.padded width n).toList ++ rest) = some (n, rest) := by
  have hlen := Numeral.length_padded hw hn
  have hdigits : (Numeral.padded width n).toList.takeWhile Char.isDigit =
      (Numeral.padded width n).toList :=
    List.takeWhile_eq_self_iff.2 fun _ hc => Numeral.isDigit_of_mem_padded hc
  have hne : (Numeral.padded width n).toList ≠ [] := by
    intro hnil
    rw [hnil, List.length_nil] at hlen
    omega
  -- the digits take up the whole width, so the rest is not looked at even if it starts with one
  have htake : ((Numeral.padded width n).toList ++ rest).take width =
      (Numeral.padded width n).toList := List.take_left' hlen
  simp only [number?, htake, hdigits, List.isEmpty_iff, hne, if_false, Numeral.value_padded,
    List.drop_left]

theorem month?_monthName {m : Nat} (hpos : 1 ≤ m) (hle : m ≤ 12) :
    (monthNames.getD (m - 1) "").toList.length = 3 ∧
      month? (monthNames.getD (m - 1) "").toList = some m := by
  interval_cases m <;> decide +kernel

theorem exists_zone {h m : Nat} (hh : h < 10 ^ 2) (hm : m < 10 ^ 2) : ∃ a b c d,
    (Numeral.padded 2 h).toList = [a, b] ∧ (Numeral.padded 2 m).toList = [c, d] ∧
      ∀ x ∈ [a, b, c, d], x.isDigit = true := by
  obtain ⟨a, b, hours⟩ := List.length_eq_two.1 (Numeral.length_padded (by decide) hh)
  obtain ⟨c, d, minutes⟩ := List.length_eq_two.1 (Numeral.length_padded (by decide) hm)
  refine ⟨a, b, c, d, hours, minutes, fun x hx => ?_⟩
  have hx : x ∈ (Numeral.padded 2 h).toList ∨ x ∈ (Numeral.padded 2 m).toList := by
    simpa [hours, minutes, or_assoc] using hx
  rcases hx with hx | hx <;> exact Numeral.isDigit_of_mem_padded hx

theorem offset?_padded {h m : Nat} (hh : h < 10 ^ 2) (hm : m < 10 ^ 2) (westward : Bool) :
    offset? ((if westward then '-' else '+') ::
      ((Numeral.padded 2 h).toList ++ (Numeral.padded 2 m).toList)) = some (westward, h, m) := by
  obtain ⟨a, b, c, d, hours, minutes, hdigits⟩ := exists_zone hh hm
  have hall : [a, b, c, d].all Char.isDigit = true := List.all_eq_true.2 hdigits
  have hvalue : Numeral.value [a, b] = h := by rw [← hours, Numeral.value_padded]
  have mvalue : Numeral.value [c, d] = m := by rw [← minutes, Numeral.value_padded]
  rw [hours, minutes]
  cases westward <;> simp [offset?, hall, hvalue, mvalue]

def dayText (s : Stamp) : List Char :=
  (Numeral.padded 2 s.date.day).toList ++ '/' ::
    ((monthNames.getD (s.date.month - 1) "").toList ++ '/' ::
      ((Numeral.padded 4 s.date.year.toNat).toList ++ ':' ::
        ((Numeral.padded 2 s.hour).toList ++ ':' :: ((Numeral.padded 2 s.minute).toList ++ ':' ::
          (Numeral.padded 2 s.second).toList))))

theorem render_toList (s : Stamp) : s.render.toList = s.dayText ++ ' ' ::
    (if s.westward then '-' else '+') ::
      ((Numeral.padded 2 s.offsetHours).toList ++ (Numeral.padded 2 s.offsetMinutes).toList) := by
  cases hwest : s.westward <;> simp [render, dayText, hwest, String.toList_append]

theorem parse?_render {s : Stamp} (hs : s.isValid = true) (hpos : 0 ≤ s.date.year)
    (hle : s.date.year ≤ 9999) : parse? s.render.toList = some s := by
  have hvalid := hs
  simp only [isValid, Civil.isValid, Bool.and_eq_true, decide_eq_true_eq] at hvalid
  obtain ⟨⟨⟨⟨⟨⟨⟨⟨hmonth, hmonth'⟩, -⟩, hday⟩, hhour⟩, hminute⟩, hsecond⟩, hhours⟩, hminutes⟩ := hvalid
  obtain ⟨hlen, hname⟩ := month?_monthName hmonth hmonth'
  have hday : s.date.day < 10 ^ 2 := (hday.trans (Civil.daysInMonth_le _ _)).trans_lt (by decide)
  have hyear : s.date.year.toNat < 10 ^ 4 := by omega
  have hyear' : (s.date.year.toNat : Int) = s.date.year := Int.toNat_of_nonneg hpos
  have hhour : s.hour < 10 ^ 2 := by omega
  have hminute : s.minute < 10 ^ 2 := by omega
  have hsecond : s.second < 10 ^ 2 := by omega
  have hoffset := offset?_padded (show s.offsetHours < 10 ^ 2 by omega)
    (show s.offsetMinutes < 10 ^ 2 by omega) s.westward
  have hspace : ∀ cs, (' ' :: (if s.westward then '-' else '+') :: cs).dropWhile CharClass.isSpace =
      (if s.westward then '-' else '+') :: cs := by
    cases s.westward <;> exact fun _ => rfl
  simp only [render_toList, dayText, List.append_assoc, List.cons_append]
  refine read_then (number?_padded (by decide) hday _) (read_then (expect?_cons _ _) ?_)
  refine read_then ((congrArg month? (List.take_left' hlen)).trans hname) ?_
  rw [List.drop_left' hlen]
  refine read_then (expect?_cons _ _) (read_then (number?_padded (by decide) hyear _) ?_)
  refine read_then (expect?_cons _ _) (read_then (number?_padded (by decide) hhour _) ?_)
  refine read_then (expect?_cons _ _) (read_then (number?_padded (by decide) hminute _) ?_)
  refine read_then (expect?_cons _ _) (read_then (number?_padded (by decide) hsecond _) ?_)
  refine read_then ((congrArg offset? (hspace _)).trans hoffset) ?_
  simp only [hyear', hs, if_true]

end TrafficMonitor.Log.Stamp
