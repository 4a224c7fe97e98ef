import TrafficMonitor.Time.Civil
import Mathlib.Tactic.IntervalCases

namespace TrafficMonitor.Time.Civil

structure EraDay where
  century : Nat
  quad : Nat
  year : Nat
  day : Nat
  century_le : century ≤ 3
  quad_le : quad ≤ 24
  year_le : year ≤ 3
  day_le : day ≤ 365
  day_last : day = 365 → year = 3 ∧ (quad = 24 → century = 3)

namespace EraDay

def years (e : EraDay) : Nat := 100 * e.century + 4 * e.quad + e.year

def days (e : EraDay) : Nat := 36524 * e.century + 1461 * e.quad + 365 * e.year + e.day

theorem exists_days_eq {d : Nat} (h : d < 146097) : ∃ e : EraDay, e.days = d := by
  obtain ⟨c, r, hc, hr, hlast, rfl⟩ : ∃ c r, c ≤ 3 ∧ r ≤ 36524 ∧ (r = 36524 → c = 3) ∧
      d = 36524 * c + r :=
    ⟨min (d / 36524) 3, d - 36524 * min (d / 36524) 3, by omega, by omega, by omega, by omega⟩
  obtain ⟨q, t, hq, ht, rfl⟩ : ∃ q t, q ≤ 24 ∧ t ≤ 1460 ∧ r = 1461 * q + t :=
    ⟨r / 1461, r % 1461, by omega, by omega, by omega⟩
  refine ⟨⟨c, q, min (t / 365) 3, t - 365 * min (t / 365) 3, hc, hq, ?_, ?_, ?_⟩, ?_⟩
  · exact Nat.min_le_right _ _
  · omega
  · intro hday
    omega
  · simp only [days]
    omega

variable (e : EraDay)

theorem years_lt : e.years < 400 := by
  have := e.century_le
  have := e.quad_le
  have := e.year_le
  simp only [years]
  omega

theorem days_lt : e.days < 146097 := by
  have := e.century_le
  have := e.quad_le
  have := e.year_le
  have := e.day_le
  have := e.day_last
  simp only [days]
  omega

theorem days_div_century : e.days / 36524 - e.days / 146096 = e.century := by
  have := e.century_le
  have := e.quad_le
  have := e.year_le
  have := e.day_le
  have := e.day_last
  simp only [days]
  omega

theorem days_div_quad : ∃ extra, e.days / 1460 = 25 * e.century + e.quad + extra ∧
    extra ≤ e.day ∧ e.day ≤ 364 + extra := by
  have := e.century_le
  have := e.quad_le
  have := e.year_le
  have := e.day_le
  have hlast : e.day = 365 → e.year = 3 := fun h => (e.day_last h).1
  -- a century has 24 days more than 25 times 1460, and four years have one more than 1460
  refine ⟨(24 * e.century + e.quad + (365 * e.year + e.day)) / 1460, ?_, ?_, ?_⟩
  · simp only [days]
    omega
  · omega
  · omega

theorem yearOfEra_days : (e.days - e.days / 1460 + e.days / 36524 - e.days / 146096) / 365 = e.years := by
  obtain ⟨extra, hquads, hlo, hhi⟩ := e.days_div_quad
  have hcentury := e.days_div_century
  have hle : e.days / 146096 ≤ e.days / 36524 := by omega
  have hnum : e.days - e.days / 1460 + e.days / 36524 - e.days / 146096 =
      365 * e.years + (e.day - extra) := by
    rw [hquads, Nat.add_sub_assoc hle, hcentury]
    simp only [days, years]
    omega
  rw [hnum]
  omega

theorem firstDay_years : 365 * e.years + e.years / 4 - e.years / 100 + e.day = e.days := by
  have := e.quad_le
  have := e.year_le
  simp only [days, years]
  omega

end EraDay

def ofMarch (year : Int) (day : Nat) : Civil :=
  let m := (5 * day + 2) / 153
  let month := if m < 10 then m + 3 else m - 9
  ⟨if month ≤ 2 then year + 1 else year, month, day - daysBeforeMonth m + 1⟩

theorem ofDays_eq_ofMarch {days era : Int} {e : EraDay}
    (h : days + 719468 = era * 146097 + e.days) :
    ofDays days = ofMarch (era * 400 + e.years) e.day := by
  have hlt := e.days_lt
  have hera : (days + 719468) / 146097 = era := by omega
  have hday : ((days + 719468) % 146097).toNat = e.days := by omega
  have hrest : e.days - (365 * e.years + e.years / 4 - e.years / 100) = e.day := by
    have := e.firstDay_years
    omega
  simp only [ofDays, ofMarch, hera, hday, e.yearOfEra_days, hrest]

theorem month_le {day : Nat} (h : day ≤ 365) : (5 * day + 2) / 153 ≤ 11 := by omega

theorem daysBeforeMonth_le (day : Nat) : daysBeforeMonth ((5 * day + 2) / 153) ≤ day := by
  simp only [daysBeforeMonth]
  omega

theorem toDays_ofMarch (year : Int) {day : Nat} (h : day ≤ 365) :
    (ofMarch year day).toDays = daysBeforeYear year + day - 719468 := by
  have hm := month_le h
  have hbefore := daysBeforeMonth_le day
  simp only [ofMarch]
  generalize (5 * day + 2) / 153 = m at *
  by_cases hten : m < 10
  · have hmonth : (m + 3 + 9) % 12 = m := by omega
    simp only [toDays, if_pos hten, if_neg (show ¬ m + 3 ≤ 2 by omega), hmonth]
    omega
  · have hmonth : (m - 9 + 9) % 12 = m := by omega
    simp only [toDays, if_neg hten, if_pos (show m - 9 ≤ 2 by omega), hmonth, Int.add_sub_cancel]
    omega

theorem daysInMonth_le (year : Int) (month : Nat) : daysInMonth year month ≤ 31 := by
  simp only [daysInMonth]
  split
  · split <;> decide
  · split <;> decide

theorem daysInMonth_eq (year : Int) {m : Nat} (h : m < 11) :
    daysInMonth year (if m < 10 then m + 3 else m - 9) =
      daysBeforeMonth (m + 1) - daysBeforeMonth m := by
  interval_cases m <;> rfl

theorem isValid_ofMarch {year : Int} {day : Nat} (h : day ≤ 365)
    (hlast : day = 365 → isLeap (year + 1) = true) : (ofMarch year day).isValid = true := by
  have hm := month_le h
  have hbefore := daysBeforeMonth_le day
  have hafter : day < daysBeforeMonth ((5 * day + 2) / 153 + 1) := by
    simp only [daysBeforeMonth]
    omega
  simp only [ofMarch]
  generalize (5 * day + 2) / 153 = m at *
  have hmonth : 1 ≤ (if m < 10 then m + 3 else m - 9) ∧ (if m < 10 then m + 3 else m - 9) ≤ 12 := by
    split <;> omega
  simp only [isValid, Bool.and_eq_true, decide_eq_true_eq]
  refine ⟨⟨hmonth, Nat.le_add_left 1 _⟩, ?_⟩
  -- only February has no fixed length, and it ends the year
  rcases Nat.lt_or_ge m 11 with hlt | hge
  · rw [daysInMonth_eq _ hlt]
    omega
  · obtain rfl : m = 11 := by omega
    have hfebruary : day - daysBeforeMonth 11 + 1 ≤ if isLeap (year + 1) then 29 else 28 := by
      have heleven : daysBeforeMonth 11 = 337 := rfl
      split
      · omega
      · have hne : day ≠ 365 := fun hday => by simp_all
        omega
    exact hfebruary

theorem exists_eraDay (days : Int) :
    ∃ (era : Int) (e : EraDay), days + 719468 = era * 146097 + e.days := by
  obtain ⟨e, he⟩ := EraDay.exists_days_eq (d := ((days + 719468) % 146097).toNat) (by omega)
  exact ⟨(days + 719468) / 146097, e, by omega⟩

theorem daysBeforeYear_eq (era : Int) (e : EraDay) :
    daysBeforeYear (era * 400 + e.years) + e.day = era * 146097 + e.days := by
  have hlt := e.years_lt
  have hfirst := e.firstDay_years
  simp only [daysBeforeYear]
  omega

theorem isLeap_of_day_last (era : Int) (e : EraDay) (h : e.day = 365) :
    isLeap (era * 400 + e.years + 1) = true := by
  obtain ⟨hyear, hquad⟩ := e.day_last h
  have := e.quad_le
  have := e.century_le
  simp only [isLeap, EraDay.years, Bool.and_eq_true, Bool.or_eq_true, beq_iff_eq, bne_iff_ne]
  omega

theorem toDays_ofDays (days : Int) : (ofDays days).toDays = days := by
  obtain ⟨era, e, h⟩ := exists_eraDay days
  rw [ofDays_eq_ofMarch h, toDays_ofMarch _ e.day_le, daysBeforeYear_eq]
  omega

theorem isValid_ofDays (days : Int) : (ofDays days).isValid = true := by
  obtain ⟨era, e, h⟩ := exists_eraDay days
  rw [ofDays_eq_ofMarch h]
  exact isValid_ofMarch e.day_le (isLeap_of_day_last era e)

end TrafficMonitor.Time.Civil
