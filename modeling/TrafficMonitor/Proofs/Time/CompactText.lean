import TrafficMonitor.Time.Duration
import TrafficMonitor.Proofs.Text.Tokens

namespace TrafficMonitor.Time.Duration

open Text

def amount (unit : Char) (cs : List Char) : Nat × List Char :=
  match cs.span Char.isDigit with
  | (d :: ds, c :: rest) => if c = unit then (Numeral.value (d :: ds), rest) else (0, cs)
  | _ => (0, cs)

def clock? (text : String) : Option (Nat × Nat × Nat) :=
  let (hours, cs) := amount 'h' text.toList
  let (minutes, cs) := amount 'm' cs
  let (seconds, cs) := amount 's' cs
  if cs.isEmpty then some (hours, minutes, seconds) else none

theorem amount_number (unit : Char) {c : Char} (hc : c.isDigit = false) (n : Nat) (rest : List Char) :
    amount unit ((toString n).toList ++ c :: rest) =
      if c = unit then (n, rest) else (0, (toString n).toList ++ c :: rest) := by
  have hvalue := Numeral.value_toString n
  obtain ⟨d, ds, hcons⟩ := List.exists_cons_of_ne_nil (Numeral.toString_ne_nil n)
  rw [amount, span_append (fun d hd => Numeral.isDigit_of_mem_toString hd) hc]
  rw [hcons] at hvalue ⊢
  simp only [hvalue]

section Units

variable {unit c : Char} (hunit : unit.isDigit = false) (hc : c.isDigit = false) (hne : c ≠ unit)
  (n : Nat) (rest : List Char)

include hunit in
theorem amount_self : amount unit ((toString n).toList ++ unit :: rest) = (n, rest) := by
  rw [amount_number unit hunit, if_pos rfl]

include hc hne in
theorem amount_other : amount unit ((toString n).toList ++ c :: rest) =
    (0, (toString n).toList ++ c :: rest) := by
  rw [amount_number unit hc, if_neg hne]

end Units

section Shapes

variable (h m s : Nat)

theorem clock?_hours :
    clock? (toString h ++ "h" ++ toString m ++ "m" ++ toString s ++ "s") = some (h, m, s) := by
  have htext : (toString h ++ "h" ++ toString m ++ "m" ++ toString s ++ "s").toList =
      (toString h).toList ++ 'h' :: ((toString m).toList ++ 'm' :: ((toString s).toList ++ ['s'])) := by
    simp
  rw [clock?, htext, amount_self (by decide)]
  simp only [amount_self (by decide : 'm'.isDigit = false), amount_self (by decide : 's'.isDigit = false)]
  rfl

theorem clock?_minutes : clock? (toString m ++ "m" ++ toString s ++ "s") = some (0, m, s) := by
  have htext : (toString m ++ "m" ++ toString s ++ "s").toList =
      (toString m).toList ++ 'm' :: ((toString s).toList ++ ['s']) := by simp
  rw [clock?, htext, amount_other (by decide) (by decide)]
  simp only [amount_self (by decide : 'm'.isDigit = false), amount_self (by decide : 's'.isDigit = false)]
  rfl

theorem clock?_seconds : clock? (toString s ++ "s") = some (0, 0, s) := by
  have htext : (toString s ++ "s").toList = (toString s).toList ++ ['s'] := String.toList_append
  rw [clock?, htext, amount_other (by decide) (by decide)]
  simp only [amount_other (by decide : 's'.isDigit = false) (by decide : 's' ≠ 'm'),
    amount_self (by decide : 's'.isDigit = false)]
  rfl

theorem toList_millis (n : Nat) : (toString n ++ "ms").toList = (toString n).toList ++ ['m', 's'] :=
  String.toList_append

theorem clock?_millis (n : Nat) : clock? (toString n ++ "ms") = none := by
  rw [clock?, toList_millis, amount_other (by decide) (by decide)]
  simp only [amount_self (by decide : 'm'.isDigit = false)]
  rfl

theorem millis_inj {n k : Nat} (h : toString n ++ "ms" = toString k ++ "ms") : n = k := by
  have hread : amount 'm' (toString n ++ "ms").toList = amount 'm' (toString k ++ "ms").toList := by rw [h]
  rw [toList_millis, toList_millis, amount_self (by decide), amount_self (by decide)] at hread
  exact congrArg Prod.fst hread

end Shapes

variable {d a b : Duration}

theorem clock?_compact (d : Duration) :
    clock? d.compact =
      if d.wholeSeconds = 0 then none
      else some (d.wholeSeconds / 3600, d.wholeSeconds % 3600 / 60, d.wholeSeconds % 60) := by
  rw [compact]
  generalize d.wholeSeconds = s
  by_cases hzero : s = 0
  · rw [if_pos hzero, if_pos hzero, clock?_millis]
  rw [if_neg hzero, if_neg hzero]
  by_cases hhour : 3600 ≤ s
  · rw [if_pos hhour, clock?_hours]
  have hshort : s / 3600 = 0 ∧ s % 3600 = s := by omega
  rw [if_neg hhour, hshort.1, hshort.2]
  by_cases hminute : 60 ≤ s
  · rw [if_pos hminute, clock?_minutes]
  have hbrief : s / 60 = 0 ∧ s % 60 = s := by omega
  rw [if_neg hminute, clock?_seconds, hbrief.1, hbrief.2]

theorem compact_of_wholeSeconds_eq_zero (h : d.wholeSeconds = 0) :
    d.compact = toString d.wholeMillis ++ "ms" := by
  rw [compact]
  exact if_pos h

theorem wholeSeconds_eq_of_compact (h : a.compact = b.compact) : a.wholeSeconds = b.wholeSeconds := by
  have hread : clock? a.compact = clock? b.compact := congrArg clock? h
  rw [clock?_compact, clock?_compact] at hread
  by_cases ha : a.wholeSeconds = 0 <;> by_cases hb : b.wholeSeconds = 0
  · rw [ha, hb]
  · rw [if_pos ha, if_neg hb] at hread
    cases hread
  · rw [if_neg ha, if_pos hb] at hread
    cases hread
  · rw [if_neg ha, if_neg hb, Option.some.injEq, Prod.mk.injEq, Prod.mk.injEq] at hread
    omega

theorem compact_eq_iff (a b : Duration) :
    (a.compact = b.compact ↔
      a.wholeSeconds = b.wholeSeconds ∧ (a.wholeSeconds = 0 → a.wholeMillis = b.wholeMillis)) ∧
    (1 ≤ a.wholeSeconds → ∃ hours minutes seconds,
      clock? a.compact = some (hours, minutes, seconds) ∧ minutes < 60 ∧ seconds < 60 ∧
        3600 * hours + 60 * minutes + seconds = a.wholeSeconds) := by
  refine ⟨⟨fun h => ?_, fun ⟨hseconds, hmillis⟩ => ?_⟩, fun hpos => ?_⟩
  · have hseconds := wholeSeconds_eq_of_compact h
    refine ⟨hseconds, fun hzero => ?_⟩
    rw [compact_of_wholeSeconds_eq_zero hzero, compact_of_wholeSeconds_eq_zero (hseconds ▸ hzero)] at h
    exact millis_inj h
  · by_cases hzero : a.wholeSeconds = 0
    · rw [compact_of_wholeSeconds_eq_zero hzero, compact_of_wholeSeconds_eq_zero (hseconds ▸ hzero),
        hmillis hzero]
    · rw [compact, compact, ← hseconds]
      simp only [if_neg hzero]
  · rw [clock?_compact, if_neg (by omega)]
    exact ⟨_, _, _, rfl, by omega, by omega, by omega⟩

theorem compact_eq_iff_past_an_hour :
    let a : Duration := ofParts 3725 0
    let b : Duration := ofParts 3725 999999999
    1 ≤ a.wholeSeconds ∧ a.compact = b.compact ∧
      ∃ hours minutes seconds, clock? a.compact = some (hours, minutes, seconds) ∧ minutes < 60 ∧
        seconds < 60 ∧ 3600 * hours + 60 * minutes + seconds = a.wholeSeconds := by
  intro a b
  obtain ⟨hcompact, hclock⟩ := compact_eq_iff a b
  exact ⟨by decide, hcompact.2 ⟨by decide, by decide⟩, hclock (by decide)⟩

end TrafficMonitor.Time.Duration
