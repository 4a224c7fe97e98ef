import TrafficMonitor.Decimal.Literal
import TrafficMonitor.Proofs.Decimal.ShortestDigits

namespace TrafficMonitor.Decimal

open Text Numeral Binary64 Shortest

structure Literal.Unpadded (ds : List Char) : Prop where
  digits : ∀ c ∈ ds, c.isDigit = true
  leading : ds = ['0'] ∨ ds ≠ [] ∧ ds.head? ≠ some '0'

structure Literal.Spells (whole fraction : List Char) (r : ℚ) : Prop where
  unpadded : Literal.Unpadded whole
  fraction_digits : ∀ c ∈ fraction, c.isDigit = true
  fraction_ne : fraction ≠ []
  value_eq : (value (whole ++ fraction) : ℚ) / 10 ^ fraction.length = r

section Digits

theorem value_append (ds es : List Char) :
    value (ds ++ es) = value ds * 10 ^ es.length + value es := by
  change Nat.ofDigitChars 10 (ds ++ es) 0 = Nat.ofDigitChars 10 ds 0 * _ + Nat.ofDigitChars 10 es 0
  rw [Nat.ofDigitChars_append, Nat.ofDigitChars_eq_ofDigitChars_zero (l := es), mul_comm]

theorem value_zeros (k : Nat) : value (List.replicate k '0') = 0 := by
  have hzero := value_replicate_zero_append k []
  rwa [List.append_nil] at hzero

theorem head?_toDigits_ne {n : Nat} (hn : n ≠ 0) : (Nat.toDigits 10 n).head? ≠ some '0' := by
  intro hhead
  obtain ⟨rest, hrest⟩ := List.head?_eq_some_iff.1 hhead
  have hvalue : value rest = n := by
    have hdigits := value_toDigits n
    rwa [hrest] at hdigits
  have hlt : value rest < 10 ^ rest.length := value_lt fun c hc =>
    Nat.isDigit_of_mem_toDigits (by decide) (by decide) (hrest ▸ List.mem_cons_of_mem _ hc)
  rcases Nat.eq_zero_or_pos rest.length with hempty | hpos
  · rw [List.length_eq_zero_iff.1 hempty] at hvalue
    exact hn hvalue.symm
  · rw [hvalue] at hlt
    have hle := (Nat.length_toDigits_le_iff (by decide) hpos).2 hlt
    rw [hrest, List.length_cons] at hle
    omega

theorem takeWhile_zeros (ds : List Char) :
    ds.takeWhile (· == '0') = List.replicate (ds.takeWhile (· == '0')).length '0' :=
  List.eq_replicate_iff.2 ⟨rfl, fun _ hc => beq_iff_eq.1
    (List.mem_takeWhile_imp (p := fun c => c == '0') hc)⟩

theorem exists_kept (ds : List Char) : ∃ j,
    ds = (ds.reverse.dropWhile (· == '0')).reverse ++ List.replicate j '0' := by
  refine ⟨(ds.reverse.takeWhile (· == '0')).length, ?_⟩
  rw [← List.reverse_replicate, ← takeWhile_zeros, ← List.reverse_append,
    List.takeWhile_append_dropWhile, List.reverse_reverse]

end Digits

section Texts

theorem spells_of_kept {whole kept : List Char} {r : ℚ}
    (hwhole : Literal.Unpadded whole) (hkept : ∀ c ∈ kept, c.isDigit = true)
    (hvalue : (value (whole ++ kept) : ℚ) / 10 ^ kept.length = r) :
    Literal.Spells whole (if kept.isEmpty then ['0'] else kept) r := by
  split
  case isTrue hempty =>
    obtain rfl := List.isEmpty_iff.1 hempty
    rw [List.append_nil] at hvalue
    refine ⟨hwhole, fun c hc => ?_, List.cons_ne_nil _ _, ?_⟩
    · rw [List.mem_singleton.1 hc]
      rfl
    · rw [← hvalue, value_append]
      change ((value whole * 10 ^ 1 + 0 : Nat) : ℚ) / 10 ^ 1 = value whole / 10 ^ 0
      push_cast
      ring
  case isFalse hsome =>
    exact ⟨hwhole, hkept, fun h => hsome (List.isEmpty_iff.2 h), hvalue⟩

theorem value_div_of_zeros {whole fraction kept : List Char} {j : Nat}
    (h : fraction = kept ++ List.replicate j '0') :
    (value (whole ++ kept) : ℚ) / 10 ^ kept.length =
      value (whole ++ fraction) / 10 ^ fraction.length := by
  rw [h, ← List.append_assoc, value_append _ (List.replicate j '0'), value_zeros, List.length_append,
    List.length_replicate, Nat.add_zero, pow_add]
  push_cast
  field_simp

theorem leading_padded {ds : List Char} (hne : ds ≠ []) (hhead : ds.head? ≠ some '0') (places : Nat) :
    let padded := List.replicate (places + 1 - ds.length) '0' ++ ds
    padded.take (padded.length - places) = ['0'] ∨
      padded.take (padded.length - places) ≠ [] ∧
        (padded.take (padded.length - places)).head? ≠ some '0' := by
  have hpos := List.length_pos_iff.2 hne
  by_cases hle : ds.length ≤ places
  · left
    have hzeros : places + 1 - ds.length = places - ds.length + 1 := by omega
    have hone : (List.replicate (places + 1 - ds.length) '0' ++ ds).length - places = 1 := by
      rw [List.length_append, List.length_replicate]
      omega
    simp only [hone]
    rw [hzeros, List.replicate_succ]
    rfl
  · right
    have hnone : places + 1 - ds.length = 0 := by omega
    have hkeep : ds.length - places ≠ 0 := by omega
    simp only [hnone, List.replicate_zero, List.nil_append]
    refine ⟨fun h => ?_, ?_⟩
    · rcases List.take_eq_nil_iff.1 h with h | h
      · exact hkeep h
      · exact hne h
    · rw [List.head?_take, if_neg hkeep]
      exact hhead

variable {d : Scientific}

theorem exists_text_of_nonneg (hd : d.digits ≠ 0) (hplace : 0 ≤ d.place) : ∃ whole kept,
    Literal.Spells whole (if kept.isEmpty then ['0'] else kept) d.value ∧
      d.text.toList = whole ++ if kept.isEmpty then [] else '.' :: kept := by
  refine ⟨Nat.toDigits 10 d.digits ++ List.replicate d.place.toNat '0', [], ?_, ?_⟩
  · refine spells_of_kept ⟨fun c hc => ?_, .inr ⟨?_, ?_⟩⟩ (by simp) ?_
    · rcases List.mem_append.1 hc with hc | hc
      · exact Nat.isDigit_of_mem_toDigits (by decide) (by decide) hc
      · rw [List.eq_of_mem_replicate hc]
        rfl
    · exact List.append_ne_nil_of_left_ne_nil Nat.toDigits_ne_nil _
    · rw [List.head?_append_of_ne_nil _ Nat.toDigits_ne_nil]
      exact head?_toDigits_ne hd
    · rw [List.append_nil, value_append, value_toDigits, value_zeros, List.length_replicate,
        Scientific.value]
      obtain ⟨p, hp⟩ := Int.eq_ofNat_of_zero_le hplace
      rw [hp, Int.toNat_natCast, zpow_natCast]
      push_cast
      simp
  · rw [Scientific.text]
    simp [hplace]

theorem exists_text_of_neg (hd : d.digits ≠ 0) (hplace : ¬0 ≤ d.place) : ∃ whole kept,
    Literal.Spells whole (if kept.isEmpty then ['0'] else kept) d.value ∧
      d.text.toList = whole ++ if kept.isEmpty then [] else '.' :: kept := by
  obtain ⟨places, hplaces⟩ : ∃ places : Nat, d.place = -places := ⟨(-d.place).toNat, by omega⟩
  have hleading := leading_padded Nat.toDigits_ne_nil (head?_toDigits_ne hd) places
  simp only at hleading
  set padded := List.replicate (places + 1 - (Nat.toDigits 10 d.digits).length) '0' ++
    Nat.toDigits 10 d.digits with hpadded
  set whole := padded.take (padded.length - places) with hwhole
  set fraction := padded.drop (padded.length - places) with hfraction
  have hsplit : whole ++ fraction = padded := List.take_append_drop _ _
  obtain ⟨j, hj⟩ := exists_kept fraction
  set kept := (fraction.reverse.dropWhile (· == '0')).reverse with hkept
  have hdigits : ∀ c ∈ padded, c.isDigit = true := by
    intro c hc
    rcases List.mem_append.1 hc with hc | hc
    · rw [List.eq_of_mem_replicate hc]
      rfl
    · exact Nat.isDigit_of_mem_toDigits (by decide) (by decide) hc
  refine ⟨whole, kept, spells_of_kept ⟨fun c hc => ?_, hleading⟩ (fun c hc => ?_) ?_, ?_⟩
  · exact hdigits c (List.mem_of_mem_take hc)
  · refine hdigits c (List.mem_of_mem_drop (i := padded.length - places) ?_)
    rw [← hfraction, hj]
    exact List.mem_append_left _ hc
  · have hlen : fraction.length = places := by
      have hle : places ≤ padded.length := by
        rw [hpadded, List.length_append, List.length_replicate]
        omega
      rw [hfraction, List.length_drop]
      omega
    rw [value_div_of_zeros hj, hsplit, hlen, hpadded, value_replicate_zero_append, value_toDigits,
      Scientific.value, hplaces, zpow_neg, zpow_natCast, div_eq_mul_inv]
  · rw [Scientific.text, if_neg hplace]
    have htoNat : (-d.place).toNat = places := by omega
    simp only [htoNat, ← hpadded, ← hwhole, ← hfraction, ← hkept]
    split <;> simp

theorem exists_text (hd : d.digits ≠ 0) : ∃ whole kept,
    Literal.Spells whole (if kept.isEmpty then ['0'] else kept) d.value ∧
      d.text.toList = whole ++ if kept.isEmpty then [] else '.' :: kept := by
  by_cases hplace : 0 ≤ d.place
  · exact exists_text_of_nonneg hd hplace
  · exact exists_text_of_neg hd hplace

end Texts

section Reading

variable {m : Nat} {e : Int} {r : ℚ}

theorem bounds_of_contains (hc : Canonical m e) (hm : 0 < m) (h : (neighbourhood m e).Contains r) :
    (2 : ℚ) ^ (-1075 : Int) ≤ r ∧ r ≤ 2 ^ (1024 : Int) := by
  have hpow : (0 : ℚ) < 2 ^ e := by positivity
  have hrounds := roundsTo_of_contains hm h
  have hm' : (1 : ℚ) ≤ m := by exact_mod_cast hm
  have hlt : (m : ℚ) + 1 ≤ 2 ^ 53 := by exact_mod_cast hc.lt
  constructor
  · have hleast : (2 : ℚ) ^ leastExponent ≤ 2 ^ e := zpow_le_zpow_right₀ one_le_two hc.least_le
    calc (2 : ℚ) ^ (-1075 : Int)
        = 1 / 2 * 2 ^ leastExponent := by
          rw [leastExponent, show (-1075 : Int) = -1 + -1074 by norm_num, zpow_add₀ two_ne_zero]
          norm_num
      _ ≤ r / 2 ^ e * 2 ^ e := by
        have hlow := hrounds.low
        exact mul_le_mul (by linarith) hleast (by positivity) (by linarith)
      _ = r := div_mul_cancel₀ _ hpow.ne'
  · have hgreatest : (2 : ℚ) ^ e ≤ 2 ^ (971 : Int) := zpow_le_zpow_right₀ one_le_two hc.le
    calc r
        = r / 2 ^ e * 2 ^ e := (div_mul_cancel₀ _ hpow.ne').symm
      _ ≤ 2 ^ (53 : Int) * 2 ^ (971 : Int) := by
        have hhigh := hrounds.high
        have hquot : r / 2 ^ e ≤ 2 ^ (53 : Int) := by
          norm_num at hlt ⊢
          linarith
        gcongr
      _ = 2 ^ (1024 : Int) := by
        rw [← zpow_add₀ two_ne_zero]
        norm_num

theorem zpow_ten_le_zpow_two : (10 : ℚ) ^ (-330 : Int) ≤ 2 ^ (-1075 : Int) := by
  rw [zpow_neg, zpow_neg, inv_le_inv₀ (by positivity) (by positivity)]
  calc (2 : ℚ) ^ (1075 : Int)
      ≤ 2 ^ ((36 * 30 : Nat) : Int) := zpow_le_zpow_right₀ one_le_two (by norm_num)
    _ = (2 ^ 36) ^ 30 := by rw [zpow_natCast, pow_mul]
    _ ≤ (10 ^ 11) ^ 30 := by gcongr; norm_num
    _ = 10 ^ (330 : Int) := by rw [← pow_mul, ← zpow_natCast]; norm_num

theorem zpow_two_lt_zpow_ten : (2 : ℚ) ^ (1024 : Int) < 10 ^ (310 : Int) :=
  calc (2 : ℚ) ^ (1024 : Int)
      ≤ 2 ^ ((93 * 11 + 1 : Nat) : Int) := zpow_le_zpow_right₀ one_le_two (by norm_num)
    _ = (2 ^ 93) ^ 11 * 2 := by rw [zpow_natCast, pow_succ, pow_mul]
    _ < (10 ^ 28) ^ 11 * 10 ^ 2 := by gcongr <;> norm_num
    _ = 10 ^ (310 : Int) := by rw [← pow_mul, ← pow_add, ← zpow_natCast]; norm_num

theorem pow_le_value {c : Char} (cs : List Char) (hdigit : c.isDigit = true) (hc : c ≠ '0') :
    10 ^ cs.length ≤ value (c :: cs) := by
  have hone : 1 ≤ value [c] := by
    have hrange := Char.isDigit_iff_toNat.1 hdigit
    have hne : c.toNat ≠ 48 := fun h => hc (Char.toNat_inj.1 h)
    change 1 ≤ 10 * 0 + (c.toNat - '0'.toNat)
    have hzero : '0'.toNat = 48 := rfl
    omega
  calc 10 ^ cs.length
      ≤ value [c] * 10 ^ cs.length := Nat.le_mul_of_pos_left _ hone
    _ ≤ value ([c] ++ cs) := by
      rw [value_append]
      exact Nat.le_add_right _ _

def Literal.significant (whole fraction : List Char) : List Char :=
  (whole ++ fraction).dropWhile (· == '0')

namespace Literal.Spells

variable {whole fraction : List Char} (hs : Literal.Spells whole fraction r)
include hs

theorem value_significant :
    (value (significant whole fraction) : ℚ) / 10 ^ fraction.length = r := by
  rw [← hs.value_eq, ← List.takeWhile_append_dropWhile (p := (· == '0')) (l := whole ++ fraction),
    takeWhile_zeros, value_replicate_zero_append]
  rfl

theorem isDigit_of_mem_significant : ∀ c ∈ significant whole fraction, c.isDigit = true := by
  intro c hc
  rcases List.mem_append.1 ((List.dropWhile_sublist _).subset hc) with hc | hc
  · exact hs.unpadded.digits c hc
  · exact hs.fraction_digits c hc

theorem exists_significant (hr : 0 < r) : ∃ c cs, significant whole fraction = c :: cs ∧ c ≠ '0' := by
  have hvalue := hs.value_significant
  obtain ⟨c, cs, hcons⟩ : ∃ c cs, significant whole fraction = c :: cs := by
    apply List.exists_cons_of_ne_nil
    intro hempty
    rw [hempty] at hvalue
    exact hr.ne ((zero_div _).symm.trans hvalue)
  refine ⟨c, cs, hcons, ?_⟩
  have hnot := List.head?_dropWhile_not (· == '0') (whole ++ fraction)
  rw [← significant, hcons] at hnot
  exact fun heq => by simp [heq] at hnot

theorem bounds (hr : 0 < r) :
    (10 : ℚ) ^ ((significant whole fraction).length - fraction.length - 1 : Int) ≤ r ∧
      r < 10 ^ ((significant whole fraction).length - fraction.length : Int) := by
  have hdigits := hs.isDigit_of_mem_significant
  have hvalue := hs.value_significant
  have hlt := value_lt hdigits
  obtain ⟨c, cs, hcons, hc⟩ := hs.exists_significant hr
  rw [hcons] at hdigits hvalue hlt ⊢
  have hle := pow_le_value cs (hdigits c List.mem_cons_self) hc
  have hshift : ((c :: cs).length - fraction.length - 1 : Int) = cs.length - fraction.length := by
    rw [List.length_cons]
    push_cast
    ring
  rw [hshift, ← hvalue, zpow_sub₀ (by norm_num), zpow_sub₀ (by norm_num), zpow_natCast, zpow_natCast,
    zpow_natCast]
  constructor
  · gcongr
    exact_mod_cast hle
  · gcongr
    exact_mod_cast hlt

theorem nearest_eq {x : Float} {negative : Bool} (h : parts x = .finite negative m e) (hm : 0 < m)
    (hr : (neighbourhood m e).Contains r) : Literal.nearest negative whole fraction 0 = x := by
  obtain ⟨hlow, hhigh⟩ := bounds_of_contains (canonical_parts h) hm hr
  have hpos : 0 < r := lt_of_lt_of_le (by positivity) hlow
  obtain ⟨hfirst, htop⟩ := hs.bounds hpos
  obtain ⟨c, cs, hcons, -⟩ := hs.exists_significant hpos
  have hfraction := List.length_pos_iff.2 hs.fraction_ne
  set digits := significant whole fraction with hdigits
  have hempty : digits.isEmpty = false := by rw [hcons]; rfl
  -- The number is far from what the reader takes for zero or infinite without a look at the digits.
  have hsmall : ¬(0 - (fraction.length : Int) + digits.length < -330) := by
    intro hlt
    have hle : (10 : ℚ) ^ ((digits.length : Int) - fraction.length) ≤ 10 ^ (-330 : Int) :=
      zpow_le_zpow_right₀ (by norm_num) (by omega)
    exact absurd (hlow.trans_lt (htop.trans_le hle)) (not_lt.2 zpow_ten_le_zpow_two)
  have hlarge : ¬(310 < 0 - (fraction.length : Int) + digits.length) := by
    intro hlt
    have hle : (10 : ℚ) ^ (310 : Int) ≤ 10 ^ ((digits.length : Int) - fraction.length - 1) :=
      zpow_le_zpow_right₀ (by norm_num) (by omega)
    exact absurd (hle.trans (hfirst.trans hhigh)) (not_le.2 zpow_two_lt_zpow_ten)
  have hplace : (-(0 - (fraction.length : Int))).toNat = fraction.length := by omega
  have hunfold : (whole ++ fraction).dropWhile (· == '0') = digits := rfl
  rw [Literal.nearest]
  simp only [hunfold]
  rw [if_neg (by simpa [hempty] using hsmall), if_neg hlarge, if_neg (by omega), hplace]
  refine Binary64.nearest_eq h hm (by positivity) ?_
  push_cast
  rwa [hs.value_significant]

end Literal.Spells

end Reading

end TrafficMonitor.Decimal
