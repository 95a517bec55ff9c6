import Mathlib.Algebra.Order.Field.Power
import Mathlib.Data.Rat.Cast.Order
import OperatorCalculus.Rule.RecordListing

-- What makes two headings the same. A number may be written as a truth value, a whole number
-- or a fraction; what counts is the number. Collections are no headings and are not even the
-- same as themselves.
namespace OperatorCalculus

namespace Decimal

inductive Number where
  | finite (value : ℚ)
  | infinite (negative : Bool)
  | undefined

def Magnitude.value (m : Magnitude) : ℚ := m.mantissa * 2 ^ m.exponent

def Value.number : Value → Number
  | .finite negative size => .finite (if negative then -size.value else size.value)
  | .infinite negative => .infinite negative
  | .undefined => .undefined

theorem Magnitude.value_nonneg (m : Magnitude) : 0 ≤ m.value :=
  mul_nonneg (Nat.cast_nonneg _) (zpow_nonneg (by norm_num) _)

theorem Magnitude.value_eq_zero_iff (m : Magnitude) : m.value = 0 ↔ m.mantissa = 0 := by
  have positive : (2 : ℚ) ^ m.exponent ≠ 0 := zpow_ne_zero _ (by norm_num)
  rw [value, mul_eq_zero, Nat.cast_eq_zero, or_iff_left positive]

theorem Magnitude.value_from (m : Magnitude) {low : Int} (below : low ≤ m.exponent) :
    m.value = (m.mantissa * 2 ^ (m.exponent - low).toNat : ℕ) * 2 ^ low := by
  have sum : m.exponent = ((m.exponent - low).toNat : ℤ) + low := by omega
  have cut : (2 : ℚ) ^ m.exponent = 2 ^ (m.exponent - low).toNat * 2 ^ low := by
    conv_lhs => rw [sum]
    rw [zpow_add₀ (by norm_num), zpow_natCast]
  rw [value, cut]
  push_cast
  exact (mul_assoc _ _ _).symm

end Decimal

namespace Json

open Decimal (Magnitude Value)

theorem sameSize_iff {a b : Magnitude} : sameSize a b = true ↔ a.value = b.value := by
  have positive : (2 : ℚ) ^ min a.exponent b.exponent ≠ 0 := zpow_ne_zero _ (by norm_num)
  rw [sameSize, beq_iff_eq, a.value_from (min_le_left _ b.exponent),
    b.value_from (min_le_right a.exponent _), mul_left_inj' positive, Nat.cast_inj]
  rfl

theorem opposite_iff {p q : ℚ} (front : 0 ≤ p) (back : 0 ≤ q) : p = q ∧ p = 0 ↔ p = -q := by
  rw [eq_neg_iff_add_eq_zero, add_eq_zero_iff_of_nonneg front back]
  exact ⟨fun both => ⟨both.2, both.1 ▸ both.2⟩, fun zero => ⟨zero.1.trans zero.2.symm, zero.1⟩⟩

theorem sameNumber_iff {x y : Value} : sameNumber x y = true ↔ x.number = y.number := by
  cases x with
  | infinite s => cases y <;> simp [sameNumber, Value.number]
  | undefined => cases y <;> simp [sameNumber, Value.number]
  | finite s a =>
    cases y with
    | infinite t => simp [sameNumber, Value.number]
    | undefined => simp [sameNumber, Value.number]
    | finite t b =>
      have front := a.value_nonneg
      have back := b.value_nonneg
      rw [sameNumber, Bool.and_eq_true, Bool.or_eq_true, beq_iff_eq, beq_iff_eq, sameSize_iff,
        ← a.value_eq_zero_iff, Value.number, Value.number, Decimal.Number.finite.injEq]
      cases s with
      | false =>
        cases t with
        | false => simp
        | true => simpa using opposite_iff front back
      | true =>
        cases t with
        | true => simp
        | false => simpa [neg_eq_iff_eq_neg] using opposite_iff front back

inductive Mark where
  | number (n : Decimal.Number)
  | value (v : Json)

def mark? (v : Json) : Option Mark :=
  match headingNumber? v with
  | some n => some (.number n.number)
  | none => if v.canHead then some (.value v) else none

theorem mark?_isSome (v : Json) : (mark? v).isSome = v.canHead := by
  cases v <;> rfl

theorem sameHeading_of_no_number {u v : Json} (first : headingNumber? u = none)
    (second : headingNumber? v = none) : sameHeading u v = true ↔ u = v ∧ u.canHead = true := by
  unfold sameHeading
  rw [first, second]
  cases u with
  | null => cases v <;> simp [canHead]
  | str s => cases v <;> simp [canHead]
  | torn s => cases v <;> simp [canHead]
  | arr items => simp [canHead]
  | obj members => simp [canHead]
  | bool b => cases first
  | int n => cases first
  | real x => cases first

theorem sameHeading_iff {u v : Json} : sameHeading u v = true ↔ mark? u = mark? v ∧ u.canHead = true := by
  rw [← mark?_isSome]
  cases first : headingNumber? u with
  | some x =>
    cases second : headingNumber? v with
    | some y => simp [sameHeading, mark?, first, second, sameNumber_iff]
    | none => cases heads : v.canHead <;> simp [sameHeading, mark?, first, second, heads]
  | none =>
    cases second : headingNumber? v with
    | some y => cases heads : u.canHead <;> simp [sameHeading, mark?, first, second, heads]
    | none =>
      rw [sameHeading_of_no_number first second, mark?_isSome]
      refine and_congr_left fun heads => ?_
      cases others : v.canHead with
      | true => simp [mark?, first, second, heads, others]
      | false =>
        have apart : u ≠ v := fun same => Bool.noConfusion (others.symm.trans (same ▸ heads))
        simp [mark?, first, second, heads, others, apart]

end Json

instance : PartialEquivBEq Heading where
  symm := by
    intro a b same
    obtain ⟨marked, heads⟩ := Json.sameHeading_iff.1 same
    refine Json.sameHeading_iff.2 ⟨marked.symm, ?_⟩
    rwa [← Json.mark?_isSome, ← marked, Json.mark?_isSome]
  trans := by
    intro a b c ab bc
    obtain ⟨first, heads⟩ := Json.sameHeading_iff.1 ab
    obtain ⟨second, _⟩ := Json.sameHeading_iff.1 bc
    exact Json.sameHeading_iff.2 ⟨first.trans second, heads⟩

theorem Heading.beq_self {h : Heading} (heads : h.value.canHead = true) : (h == h) = true :=
  Json.sameHeading_iff.2 ⟨rfl, heads⟩

end OperatorCalculus
