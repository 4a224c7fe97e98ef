namespace TrafficMonitor.Decimal.Binary64

open Float.Model

theorem compare_swap (a b : UnpackedFloat) : b.compare a = (a.compare b).map Ordering.swap := by
  cases a with
  | notANumber => cases b <;> rfl
  | infinity s =>
    cases b with
    | notANumber => cases s <;> rfl
    | infinity t => cases s <;> cases t <;> rfl
    | zero t => cases s <;> rfl
    | finite t => cases s <;> cases t <;> rfl
  | zero s =>
    cases b with
    | notANumber | zero => rfl
    | infinity t | finite t => cases t <;> rfl
  | finite s m e =>
    cases b with
    | notANumber => cases s <;> rfl
    | infinity t => cases s <;> cases t <;> rfl
    | zero t => cases s <;> rfl
    | finite t n f =>
      have hswap : (compare f e).then (compare n m) = ((compare e f).then (compare m n)).swap := by
        rw [Ordering.swap_then, Int.compare_swap, Nat.compare_swap]
      cases s with
      | positive =>
        cases t with
        | positive => exact congrArg some hswap
        | negative => rfl
      | negative =>
        cases t with
        | positive => rfl
        | negative => exact congrArg (fun o => some o.swap) hswap

theorem isSome_compare (a b : UnpackedFloat) :
    (a.compare b).isSome = (!a.isNaN && !b.isNaN) := by
  cases a with
  | notANumber => cases b <;> rfl
  | infinity s =>
    cases b with
    | notANumber | zero => cases s <;> rfl
    | infinity t | finite t => cases s <;> cases t <;> rfl
  | zero s =>
    cases b with
    | notANumber | zero => rfl
    | infinity t | finite t => cases t <;> rfl
  | finite s =>
    cases b with
    | notANumber | zero => cases s <;> rfl
    | infinity t | finite t => cases s <;> cases t <;> rfl

theorem lt_iff_compare (x y : Float) :
    x < y ↔ x.toModel.unpack.compare y.toModel.unpack = some .lt := by
  change decide (x.toModel.unpack.lt y.toModel.unpack = true) = true ↔ _
  rw [decide_eq_true_iff, UnpackedFloat.lt, beq_iff_eq]

theorem le_iff_compare (x y : Float) :
    x ≤ y ↔ ∃ o, x.toModel.unpack.compare y.toModel.unpack = some o ∧ o.isLE = true := by
  change decide (x.toModel.unpack.le y.toModel.unpack = true) = true ↔ _
  rw [decide_eq_true_iff, UnpackedFloat.le, Option.any_eq_true]

theorem not_le_iff_lt {x y : Float} (hx : x.isNaN = false) (hy : y.isNaN = false) :
    ¬y ≤ x ↔ x < y := by
  have hsome := isSome_compare x.toModel.unpack y.toModel.unpack
  have hx' : x.toModel.unpack.isNaN = false := hx
  have hy' : y.toModel.unpack.isNaN = false := hy
  rw [hx', hy', Bool.not_false, Bool.and_self] at hsome
  obtain ⟨o, ho⟩ := Option.isSome_iff_exists.1 hsome
  rw [lt_iff_compare, le_iff_compare, compare_swap x.toModel.unpack, ho]
  cases o <;> simp

section NaN

variable {x y : Float} (h : x.isNaN = true ∨ y.isNaN = true)
include h

theorem compare_eq_none : x.toModel.unpack.compare y.toModel.unpack = none := by
  have h' : x.toModel.unpack.isNaN = true ∨ y.toModel.unpack.isNaN = true := h
  rw [← Option.not_isSome_iff_eq_none, isSome_compare]
  rcases h' with h' | h' <;> simp [h']

theorem not_lt_of_isNaN : ¬x < y := by
  rw [lt_iff_compare, compare_eq_none h]
  intro hlt
  cases hlt

theorem not_le_of_isNaN : ¬x ≤ y := by
  rw [le_iff_compare, compare_eq_none h]
  rintro ⟨o, ho, -⟩
  cases ho

end NaN

end TrafficMonitor.Decimal.Binary64
