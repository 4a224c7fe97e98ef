import Mathlib.Data.List.Induction
import TrafficMonitor.Alert.Machine
import TrafficMonitor.Proofs.Decimal.Order

namespace TrafficMonitor.Alert

open Time Decimal.Binary64

structure Reading where
  average : Option Float
  time : Instant

namespace Reading

def above? (threshold : Float) (reading : Reading) : Option Bool :=
  reading.average.bind fun average =>
    if average.isNaN = true then none else some (decide (threshold < average))

variable {threshold average : Float} {reading : Reading} {time : Instant}

theorem above?_of_isNaN (hn : average.isNaN = true) :
    above? threshold ⟨some average, time⟩ = none := by
  rw [above?, Option.bind_some, if_pos hn]

theorem above?_of_isNaN_eq_false (hn : average.isNaN = false) :
    above? threshold ⟨some average, time⟩ = some (decide (threshold < average)) := by
  rw [above?, Option.bind_some, if_neg (Bool.eq_false_iff.1 hn)]

theorem above?_of_lt (h : threshold < average) :
    above? threshold ⟨some average, time⟩ = some true := by
  have hn : average.isNaN = false := by
    rw [Bool.eq_false_iff]
    exact fun hn => not_lt_of_isNaN (.inr hn) h
  rw [above?_of_isNaN_eq_false hn, decide_eq_true h]

theorem above?_of_le (ht : threshold.isNaN = false) (h : average ≤ threshold) :
    above? threshold ⟨some average, time⟩ = some false := by
  have hn : average.isNaN = false := by
    rw [Bool.eq_false_iff]
    exact fun hn => not_le_of_isNaN (.inl hn) h
  have hlt : ¬threshold < average := fun hlt => (not_le_iff_lt ht hn).2 hlt h
  rw [above?_of_isNaN_eq_false hn, decide_eq_false hlt]

theorem exists_of_above? (ht : threshold.isNaN = false) {above : Bool}
    (h : reading.above? threshold = some above) : ∃ average, reading.average = some average ∧
      (threshold < average ↔ above = true) ∧ (average ≤ threshold ↔ above = false) := by
  obtain ⟨average, ha, h⟩ := Option.bind_eq_some_iff.1 h
  split at h
  case isTrue => cases h
  case isFalse hn =>
    cases h
    have hle := not_le_iff_lt ht (Bool.eq_false_iff.2 hn)
    refine ⟨average, ha, decide_eq_true_iff.symm, ?_⟩
    rw [decide_eq_false_iff_not, ← hle, Decidable.not_not]

def flip? (threshold : Float) (before : Bool) (reading : Reading) : Option Crossing :=
  if reading.above? threshold = some (!before) then
    reading.average.map fun average => ⟨before, average, reading.time⟩
  else none

theorem flip?_eq_none {above : Bool} (h : reading.above? threshold = some above) :
    reading.flip? threshold above = none := by
  simp [flip?, h]

theorem exists_flip? {above : Bool} (h : reading.above? threshold = some above) :
    ∃ average, reading.average = some average ∧
      reading.flip? threshold (!above) = some ⟨!above, average, reading.time⟩ := by
  obtain ⟨average, ha, -⟩ := Option.bind_eq_some_iff.1 h
  exact ⟨average, ha, by simp [flip?, h, ha]⟩

end Reading

def lastAbove (threshold : Float) (readings : List Reading) : Bool :=
  (readings.filterMap (Reading.above? threshold)).getLast?.getD false

theorem lastAbove_concat (threshold : Float) (readings : List Reading) (reading : Reading) :
    lastAbove threshold (readings ++ [reading]) =
      (reading.above? threshold).getD (lastAbove threshold readings) := by
  rw [lastAbove, List.filterMap_append]
  cases h : reading.above? threshold with
  | none => simp [h, lastAbove]
  | some above => simp [h]

namespace Machine

def run (m : Machine) : List Reading → List (Option Crossing) × Machine
  | [] => ([], m)
  | reading :: more =>
    let (alert, next) := m.evaluate reading.average reading.time
    let (alerts, last) := next.run more
    (alert :: alerts, last)

theorem run_concat (m : Machine) (readings : List Reading) (reading : Reading) :
    m.run (readings ++ [reading]) =
      let after := m.run readings
      let (alert, last) := after.2.evaluate reading.average reading.time
      (after.1 ++ [alert], last) := by
  induction readings generalizing m with
  | nil => rfl
  | cons first readings ih => simp only [List.cons_append, run, ih]

theorem evaluate_of_above?_eq_none (m : Machine) {reading : Reading}
    (h : reading.above? m.threshold = none) :
    m.evaluate reading.average reading.time = (none, m) := by
  obtain ⟨_ | average, time⟩ := reading
  · rfl
  · have hn : average.isNaN = true := by
      by_contra hn
      rw [Reading.above?_of_isNaN_eq_false (Bool.eq_false_iff.2 hn)] at h
      cases h
    cases hs : m.status with
    | normal => simp [evaluate, hs, not_lt_of_isNaN (.inr hn)]
    | alerting => simp [evaluate, hs, not_le_of_isNaN (.inl hn)]

theorem evaluate_of_above? (m : Machine) (ht : m.threshold.isNaN = false) {reading : Reading}
    {above : Bool} (h : reading.above? m.threshold = some above) :
    m.evaluate reading.average reading.time =
      (reading.flip? m.threshold m.isAlerting,
        { m with status := if above = true then .alerting else .normal }) := by
  obtain ⟨average, ha, hlt, hle⟩ := Reading.exists_of_above? ht h
  obtain ⟨status, threshold⟩ := m
  cases status <;> cases above <;>
    simp_all [evaluate, Reading.flip?, isAlerting]

theorem isAlerting_iff (m : Machine) : m.isAlerting = true ↔ m.status = .alerting := by
  rw [isAlerting, beq_iff_eq]

structure Alternating (emitted : List Crossing) (alerting : Bool) : Prop where
  parity : alerting = decide (emitted.length % 2 = 1)
  recovered_eq : ∀ i alert, emitted[i]? = some alert → alert.recovered = decide (i % 2 = 1)

namespace Alternating

variable {emitted : List Crossing} {alerting : Bool}

theorem concat (h : Alternating emitted alerting) (alert : Crossing)
    (ha : alert.recovered = alerting) : Alternating (emitted ++ [alert]) (!alerting) where
  parity := by
    rw [h.parity, List.length_append, List.length_singleton]
    grind
  recovered_eq i other hi := by
    rcases Nat.lt_trichotomy i emitted.length with hlt | rfl | hgt
    · rw [List.getElem?_append_left hlt] at hi
      exact h.recovered_eq i other hi
    · obtain rfl : alert = other := by simpa using hi
      exact ha.trans h.parity
    · rw [List.getElem?_eq_none (by simp; omega)] at hi
      cases hi

end Alternating

structure Traced (threshold : Float) (readings : List Reading) (alerts : List (Option Crossing))
    (m : Machine) : Prop where
  threshold_eq : m.threshold = threshold
  isAlerting_eq : m.isAlerting = lastAbove threshold readings
  alert_eq : ∀ i, alerts[i]? =
    readings[i]?.map (Reading.flip? threshold (lastAbove threshold (readings.take i)))
  alternating : Alternating (alerts.filterMap id) m.isAlerting

namespace Traced

variable {threshold : Float} {readings : List Reading} {alerts : List (Option Crossing)}
  {m : Machine}

theorem initial (threshold : Float) : Traced threshold [] [] (.initial threshold) where
  threshold_eq := rfl
  isAlerting_eq := rfl
  alert_eq := by simp
  alternating := ⟨rfl, by simp⟩

theorem length_eq (h : Traced threshold readings alerts m) : alerts.length = readings.length := by
  have hnone (i : Nat) : alerts.length ≤ i ↔ readings.length ≤ i := by
    rw [← List.getElem?_eq_none_iff, h.alert_eq, Option.map_eq_none_iff,
      List.getElem?_eq_none_iff]
  exact Nat.le_antisymm ((hnone _).2 (Nat.le_refl _)) ((hnone _).1 (Nat.le_refl _))

theorem concat_alert_eq (h : Traced threshold readings alerts m) (reading : Reading) (i : Nat) :
    (alerts ++ [reading.flip? threshold m.isAlerting])[i]? =
      (readings ++ [reading])[i]?.map
        (Reading.flip? threshold (lastAbove threshold ((readings ++ [reading]).take i))) := by
  have hl := h.length_eq
  rcases Nat.lt_trichotomy i readings.length with hi | rfl | hi
  · rw [List.getElem?_append_left (by omega), List.getElem?_append_left hi,
      List.take_append_of_le_length (Nat.le_of_lt hi), h.alert_eq]
  · rw [← hl, List.getElem?_concat_length, hl, List.getElem?_concat_length, List.take_left,
      h.isAlerting_eq]
    rfl
  · rw [List.getElem?_eq_none (by simp; omega), List.getElem?_eq_none (by simp; omega)]
    rfl

theorem step (h : Traced threshold readings alerts m) (ht : threshold.isNaN = false)
    (reading : Reading) :
    Traced threshold (readings ++ [reading])
      (alerts ++ [(m.evaluate reading.average reading.time).1])
      (m.evaluate reading.average reading.time).2 := by
  obtain rfl := h.threshold_eq
  have hlast := lastAbove_concat m.threshold readings reading
  have halert := h.concat_alert_eq reading
  cases habove : reading.above? m.threshold with
  | none =>
    have hflip : reading.flip? m.threshold m.isAlerting = none := by simp [Reading.flip?, habove]
    rw [hflip] at halert
    rw [habove] at hlast
    rw [evaluate_of_above?_eq_none m habove]
    exact ⟨rfl, h.isAlerting_eq.trans hlast.symm, halert, by simpa using h.alternating⟩
  | some above =>
    rw [habove] at hlast
    rw [evaluate_of_above? m ht habove]
    have hstatus : isAlerting { m with status := if above = true then .alerting else .normal } =
        above := by
      cases above <;> rfl
    refine ⟨rfl, hstatus.trans hlast.symm, halert, ?_⟩
    rw [hstatus, List.filterMap_append]
    by_cases hsame : m.isAlerting = above
    · rw [hsame, Reading.flip?_eq_none habove]
      simpa [hsame] using h.alternating
    · have hother : m.isAlerting = !above := by grind
      obtain ⟨average, -, hflip⟩ := Reading.exists_flip? habove
      rw [hother, hflip]
      simpa [hother] using h.alternating.concat ⟨!above, average, reading.time⟩ hother.symm

theorem run (ht : threshold.isNaN = false) (readings : List Reading) :
    Traced threshold readings ((Machine.initial threshold).run readings).1
      ((Machine.initial threshold).run readings).2 := by
  induction readings using List.reverseRecOn with
  | nil => exact initial threshold
  | append_singleton readings reading ih =>
    rw [run_concat]
    exact ih.step ht reading

theorem exists_reading (h : Traced threshold readings alerts m) (ht : threshold.isNaN = false)
    {i : Nat} {alert : Crossing} (hi : alerts[i]? = some (some alert)) :
    readings[i]? = some ⟨some alert.average, alert.time⟩ ∧
      if alert.recovered then alert.average ≤ threshold else threshold < alert.average := by
  rw [h.alert_eq, Option.map_eq_some_iff] at hi
  obtain ⟨⟨average?, time⟩, hreading, hflip⟩ := hi
  rw [Reading.flip?] at hflip
  split at hflip
  case isFalse => cases hflip
  case isTrue habove =>
    obtain ⟨average, rfl, hlt, hle⟩ := Reading.exists_of_above? ht habove
    cases hflip
    refine ⟨hreading, ?_⟩
    cases hlast : lastAbove threshold (readings.take i) with
    | true => exact hle.2 (by simp [hlast])
    | false => exact hlt.2 (by simp [hlast])

theorem emits_iff (h : Traced threshold readings alerts m) {i : Nat} {reading : Reading}
    (hi : readings[i]? = some reading) : (∃ alert, alerts[i]? = some (some alert)) ↔
      reading.above? threshold = some (!lastAbove threshold (readings.take i)) := by
  rw [h.alert_eq, hi, Option.map_some]
  simp only [Option.some.injEq]
  constructor
  · rintro ⟨alert, hflip⟩
    rw [Reading.flip?] at hflip
    split at hflip
    case isTrue habove => exact habove
    case isFalse => cases hflip
  · intro habove
    obtain ⟨average, -, hflip⟩ := Reading.exists_flip? habove
    rw [Bool.not_not] at hflip
    exact ⟨_, hflip⟩

end Traced

/-- Over any readings the machine alerts at those that compare with the threshold unlike the last
one before them that did, and at no others: trigger and recovery in turn. -/
theorem alerts_are_flips {threshold : Float} (ht : threshold.isNaN = false)
    (readings : List Reading) :
    let alerts := ((initial threshold).run readings).1
    let m := ((initial threshold).run readings).2
    let emitted := alerts.filterMap id
    alerts.length = readings.length ∧
    (∀ i alert, emitted[i]? = some alert → alert.recovered = decide (i % 2 = 1)) ∧
    (∀ (i : Nat) (alert : Crossing), alerts[i]? = some (some alert) →
      readings[i]? = some ⟨some alert.average, alert.time⟩ ∧
        if alert.recovered then alert.average ≤ threshold else threshold < alert.average) ∧
    (m.status = .alerting ↔ emitted.length % 2 = 1) ∧
    (∀ average time,
      (threshold < average → (m.evaluate (some average) time).2.status = .alerting) ∧
      (average ≤ threshold → (m.evaluate (some average) time).2.status = .normal) ∧
      (average.isNaN = true → m.evaluate (some average) time = (none, m)) ∧
      m.evaluate none time = (none, m)) ∧
    (∀ i reading, readings[i]? = some reading →
      ((∃ alert, alerts[i]? = some (some alert)) ↔
        reading.above? threshold = some (!lastAbove threshold (readings.take i)))) := by
  intro alerts m emitted
  have h : Traced threshold readings alerts m := Traced.run ht readings
  refine ⟨h.length_eq, h.alternating.recovered_eq, fun i alert => h.exists_reading ht, ?_, ?_,
    fun i reading => h.emits_iff⟩
  · rw [← isAlerting_iff, h.alternating.parity, decide_eq_true_iff]
  · intro average time
    have hm : m.threshold = threshold := h.threshold_eq
    have hnan : m.threshold.isNaN = false := hm ▸ ht
    refine ⟨fun hlt => ?_, fun hle => ?_, fun hn => ?_, rfl⟩
    · have habove : Reading.above? m.threshold ⟨some average, time⟩ = some true :=
        Reading.above?_of_lt (hm ▸ hlt)
      rw [evaluate_of_above? m hnan habove]
      rfl
    · have habove : Reading.above? m.threshold ⟨some average, time⟩ = some false :=
        Reading.above?_of_le hnan (hm ▸ hle)
      rw [evaluate_of_above? m hnan habove]
      rfl
    · exact evaluate_of_above?_eq_none m (Reading.above?_of_isNaN hn)

def mixedReadings : List Reading :=
  [(none, 1), (some (0.0 / 0.0), 2), (some 10.0, 3), (some 10.5, 4), (none, 5),
    (some (0.0 / 0.0), 6), (some (1.0 / 0.0), 7), (some 10.0, 8), (some 9.0, 9),
    (some 11.0, 10)].map fun (average, second) => ⟨average, ⟨second, 0⟩⟩

theorem alerts_are_flips_mixed :
    let run := (initial 10.0).run mixedReadings
    (10.0 : Float).isNaN = false ∧
    (run.1.map fun alert => alert.map fun a => (a.recovered, a.time.seconds)) =
      [none, none, none, some (false, 4), none, none, none, some (true, 8), none,
        some (false, 10)] ∧
    (run.2.status = .alerting ↔ (run.1.filterMap id).length % 2 = 1) := by
  have hnumber : (10.0 : Float).isNaN = false := by decide +kernel
  have hflips := alerts_are_flips hnumber mixedReadings
  exact ⟨hnumber, by decide +kernel, hflips.2.2.2.1⟩

end Machine

end TrafficMonitor.Alert
