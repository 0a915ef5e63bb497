import Mathlib.Data.Rat.Cast.Order
import Mathlib.Tactic.NormNum
import SqlTree.Proofs.KeptValues

namespace SqlTree

namespace Decimal

/-- The number that a decimal denotes. -/
def number (d : Decimal) : ℚ :=
  (if d.negative then -(d.coefficient : ℚ) else d.coefficient) / 10 ^ d.scale

theorem shifted_eq (d : Decimal) {places : Nat} (room : d.scale ≤ places) :
    (d.shifted places : ℚ) = d.number * 10 ^ places := by
  obtain ⟨more, rfl⟩ := Nat.exists_eq_add_of_le room
  have positive : (10 : ℚ) ^ d.scale ≠ 0 := pow_ne_zero _ (by norm_num)
  have spread : d.number * 10 ^ (d.scale + more) =
      (if d.negative then -(d.coefficient : ℚ) else d.coefficient) * 10 ^ more := by
    rw [number, pow_add, ← mul_assoc, div_mul_cancel₀ _ positive]
  rw [spread, shifted, Nat.add_sub_cancel_left]
  split <;> simp

/-- Decimals are the same exactly when they denote the same number. -/
theorem beq_iff (a b : Decimal) : (a == b) = true ↔ a.number = b.number := by
  have left := a.shifted_eq (Nat.le_max_left a.scale b.scale)
  have right := b.shifted_eq (Nat.le_max_right a.scale b.scale)
  have positive : (10 : ℚ) ^ max a.scale b.scale ≠ 0 := pow_ne_zero _ (by norm_num)
  change (a.shifted (max a.scale b.scale) == b.shifted (max a.scale b.scale)) = true ↔ _
  rw [beq_iff_eq, ← Int.cast_inj (α := ℚ), left, right]
  exact mul_left_inj' positive

end Decimal

namespace Literal

/-- Equal literals are identical or decimals of one number. -/
theorem eq_or_decimal_of_beq {a b : Literal} (same : (a == b) = true) :
    a = b ∨ ∃ d e, a = .decimal d ∧ b = .decimal e ∧ d.number = e.number := by
  cases a with
  | decimal d =>
    cases b with
    | decimal e => exact .inr ⟨d, e, rfl, rfl, (d.beq_iff e).mp same⟩
    | _ => cases same
  | null =>
    cases b with
    | null => exact .inl rfl
    | _ => cases same
  | _ => cases b <;> first | cases same | exact .inl (congrArg _ (eq_of_beq same))

theorem beq_of_number {d e : Decimal} (same : d.number = e.number) :
    (Literal.decimal d == Literal.decimal e) = true :=
  (d.beq_iff e).mpr same

instance equivBEq : EquivBEq Literal where
  symm same := by
    rcases eq_or_decimal_of_beq same with rfl | ⟨d, e, rfl, rfl, numbers⟩
    · exact same
    · exact beq_of_number numbers.symm
  trans first second := by
    rcases eq_or_decimal_of_beq first with rfl | ⟨d, e, rfl, rfl, numbers⟩
    · exact second
    · rcases eq_or_decimal_of_beq second with rfl | ⟨_, f, same, rfl, others⟩
      · exact first
      · cases same
        exact beq_of_number (numbers.trans others)

end Literal

/-- A missing value is equal to a missing value only. -/
instance equivBEq_option {α : Type} [BEq α] [EquivBEq α] : EquivBEq (Option α) where
  rfl {a} := by
    cases a with
    | none => rfl
    | some a => exact (BEq.refl a :)
  symm {a b} same := by
    cases a with
    | none =>
      cases b with
      | none => rfl
      | some b => cases same
    | some a =>
      cases b with
      | none => cases same
      | some b => exact (PartialEquivBEq.symm (a := a) (b := b) same :)
  trans {a b c} first second := by
    cases a with
    | none =>
      cases b with
      | none => exact second
      | some b => cases first
    | some a =>
      cases b with
      | none => cases first
      | some b =>
        cases c with
        | none => cases second
        | some c => exact (PartialEquivBEq.trans (a := a) (b := b) (c := c) first second :)

end SqlTree
