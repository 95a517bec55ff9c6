import Mathlib.Data.List.Permutation
import OperatorCalculus.Proofs.Expression.Exchange

namespace OperatorCalculus

open Operand

namespace WholeSide

open Reading

variable {ps : Reading} {target rule : Sides}

def AllLiteral (target : Sides) : Prop :=
  ∀ o ∈ Operand.extract target.left ++ Operand.extract target.right, o.kind = .literal

instance (target rule : Sides) : Decidable (SameShape target rule) :=
  inferInstanceAs (Decidable (_ ∧ _))

-- Commutativity that renumbers without a look at the shapes.
def unguarded (target rule : Sides) : Option Position :=
  if target.reverse = rule then some (.whole .both "target is the rule reversed")
  else if renumbered target.reverse = rule then
    some (.whole .both "target is the rule reversed, renumbered")
  else none

theorem literal_iff_numbers (reads : Reads false ps) :
    (∀ o ∈ Operand.extract (text ps), o.kind = .literal) ↔ Numbers id ps := by
  rw [reads.extract_text]
  constructor
  · intro literal v member
    obtain ⟨k, inside⟩ := mem_values.1 member
    obtain ⟨as, bs, split⟩ := List.append_of_mem inside
    have kind : k = .literal :=
      literal ⟨v, (text as).length, k⟩ (mem_tokens.2 ⟨as, bs, split, (Nat.zero_add _).symm⟩)
    subst kind
    rcases reads.operand_cases inside with ⟨other, _⟩ | ⟨other, _⟩ | ⟨_, number⟩
    · cases other
    · cases other
    · exact number
  · intro numbers o member
    obtain ⟨as, bs, split, _⟩ := mem_tokens.1 member
    have inside : Part.operand o.kind o.value ∈ ps := by simp [split]
    have number : isNumberWord o.value = true := numbers _ (mem_values.2 ⟨_, inside⟩)
    rcases reads.operand_cases inside with ⟨_, isCall⟩ | ⟨_, subscripted | letter⟩ | ⟨kind, _⟩
    · rw [not_number_of_call isCall] at number
      cases number
    · rw [not_number_of_subscripted subscripted] at number
      cases number
    · rw [not_number_of_letter letter] at number
      cases number
    · exact kind

theorem shape_of_numbers (numbers : Numbers id ps) (ns : Numbering) :
    shape (text ps) = shape (numbered ns ps) := by
  have same : shape (text (rename id ps)) = shape (numbered ns ps) := by
    refine filter_rename fun v member => ?_
    have own : shape (id v) = [] := (shape_number.1 (numbers v member)).2
    have given : shape (Text.ofNat (ns.number v)) = [] :=
      (shape_number.1 (Text.isNumberWord_ofNat _)).2
    exact own.trans given.symm
  rwa [rename_id] at same

theorem shape_numbered_iff (reads : Reads false ps) (ns : Numbering) :
    shape (text ps) = shape (numbered ns ps) ↔ ∀ o ∈ Operand.extract (text ps), o.kind = .literal := by
  rw [literal_iff_numbers reads]
  exact ⟨numbers_of_shape reads, fun numbers => shape_of_numbers numbers ns⟩

theorem sameShape_renumbered_iff (target : Sides) :
    SameShape target.reverse (renumbered target.reverse) ↔ AllLiteral target := by
  obtain ⟨start, goal⟩ := target
  obtain ⟨ps, readsP, rfl⟩ := Reads.exists_of_text start false
  obtain ⟨qs, readsQ, rfl⟩ := Reads.exists_of_text goal false
  have forms : renumbered (Sides.reverse ⟨text ps, text qs⟩) =
      ⟨numbered (names qs ps) qs, numbered (names qs ps) ps⟩ := renumbered_text readsQ readsP
  rw [forms, SameShape, Sides.reverse, shape_numbered_iff readsQ, shape_numbered_iff readsP,
    AllLiteral, List.forall_mem_append]
  exact and_comm

theorem commutativity_eq (target rule : Sides) : commutativity target rule =
    if target.reverse = rule then some (.whole .both "target is the rule reversed")
    else if SameShape target.reverse rule ∧ renumbered target.reverse = rule then
      some (.whole .both "target is the rule reversed, renumbered")
    else none := by
  obtain ⟨start, goal⟩ := target
  obtain ⟨left, right⟩ := rule
  simp only [commutativity, SameShape, Sides.reverse, Sides.mk.injEq, Bool.and_eq_true, beq_iff_eq,
    and_comm (a := start = right)]
  congr

theorem commutativity_of_literal (literal : AllLiteral target) (rule : Sides) :
    commutativity target rule = unguarded target rule := by
  have shapes := (sameShape_renumbered_iff target).2 literal
  have guard : (SameShape target.reverse rule ∧ renumbered target.reverse = rule) ↔
      renumbered target.reverse = rule := by
    constructor
    · exact And.right
    · rintro rfl
      exact ⟨shapes, rfl⟩
  simp only [commutativity_eq, guard, unguarded]

theorem commutativity_of_not_literal (other : ¬ AllLiteral target) (rule : Sides) :
    commutativity target rule =
      if target.reverse = rule then some (.whole .both "target is the rule reversed") else none := by
  have guard : ¬ (SameShape target.reverse rule ∧ renumbered target.reverse = rule) := by
    rintro ⟨shapes, rfl⟩
    exact other ((sameShape_renumbered_iff target).1 shapes)
  rw [commutativity_eq, if_neg guard]

theorem commutativity_ne_unguarded_iff (target rule : Sides) :
    commutativity target rule ≠ unguarded target rule ↔
      ¬ AllLiteral target ∧ target.reverse ≠ rule ∧ renumbered target.reverse = rule := by
  constructor
  · intro differ
    have other : ¬ AllLiteral target := fun literal => differ (commutativity_of_literal literal rule)
    rw [commutativity_of_not_literal other, unguarded] at differ
    by_cases reversed : target.reverse = rule
    · simp [reversed] at differ
    · by_cases again : renumbered target.reverse = rule
      · exact ⟨other, reversed, again⟩
      · simp [reversed, again] at differ
  · rintro ⟨other, reversed, again⟩
    rw [commutativity_of_not_literal other, unguarded, if_neg reversed, if_neg reversed, if_pos again]
    simp

theorem guard_admits_literals (start goal left right : Text) :
    let target : Sides := ⟨start, goal⟩
    let rule : Sides := ⟨left, right⟩
    (Expression.canonicalPair goal start = (left, right) →
      ((shape goal = shape left ∧ shape start = shape right) ↔ AllLiteral target)) ∧
    (AllLiteral target → commutativity target rule = unguarded target rule) ∧
    (¬ AllLiteral target → commutativity target rule =
      if target.reverse = rule then some (.whole .both "target is the rule reversed") else none) ∧
    (commutativity target rule ≠ unguarded target rule ↔
      ¬ AllLiteral target ∧ target.reverse ≠ rule ∧ renumbered target.reverse = rule) := by
  intro target rule
  refine ⟨?_, fun literal => commutativity_of_literal literal rule,
    fun other => commutativity_of_not_literal other rule, commutativity_ne_unguarded_iff target rule⟩
  intro forms
  have again : renumbered target.reverse = rule := by
    simp only [renumbered, target, rule, Sides.reverse, forms]
  rw [← sameShape_renumbered_iff target, again]
  rfl

theorem guard_admits_literals_call :
    let start := ", 1 \\Ps R(i),".toList
    let goal := ", R(i) \\Ps 2,".toList
    let left := ", 1 \\Ps 2,".toList
    let right := ", 3 \\Ps 1,".toList
    Expression.canonicalPair goal start = (left, right) ∧
      ¬ (shape goal = shape left ∧ shape start = shape right) ∧
      commutativity ⟨start, goal⟩ ⟨left, right⟩ = none ∧
      (unguarded ⟨start, goal⟩ ⟨left, right⟩).isSome = true := by
  have forms : Expression.canonicalPair ", R(i) \\Ps 2,".toList ", 1 \\Ps R(i),".toList =
      (", 1 \\Ps 2,".toList, ", 3 \\Ps 1,".toList) := by decide_cbv
  have differ : shape ", R(i) \\Ps 2,".toList ≠ shape ", 1 \\Ps 2,".toList := by decide_cbv
  have apart : ", R(i) \\Ps 2,".toList ≠ ", 1 \\Ps 2,".toList := by decide_cbv
  intro start goal left right
  obtain ⟨exactly, _, never, _⟩ := guard_admits_literals start goal left right
  have other : ¬ AllLiteral ⟨start, goal⟩ := fun literal => differ ((exactly forms).2 literal).1
  have unequal : Sides.reverse ⟨start, goal⟩ ≠ ⟨left, right⟩ :=
    fun same => apart (congrArg Sides.left same)
  have again : renumbered (Sides.reverse ⟨start, goal⟩) = ⟨left, right⟩ := by
    simp only [renumbered, Sides.reverse, start, goal, forms]
    rfl
  refine ⟨forms, fun shapes => differ shapes.1, ?_, ?_⟩
  · rw [never other, if_neg unequal]
  · rw [unguarded, if_neg unequal, if_pos again]
    rfl

end WholeSide
end OperatorCalculus
