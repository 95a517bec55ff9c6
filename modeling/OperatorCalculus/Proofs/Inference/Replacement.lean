import OperatorCalculus.Inference.Law
import OperatorCalculus.Proofs.Text.Occurrences

namespace OperatorCalculus

namespace InContext

variable {container found replacement expected before after : Text} {target rule : Sides} {hit : Hit}

theorem cut_between :
    cut (before ++ found ++ after) found before.length = ⟨before.length, before, after⟩ := by
  rw [cut, ← List.length_append, List.drop_left, List.append_assoc, List.take_left]

theorem replacing_eq_some_iff :
    replacing (before ++ found ++ after) found replacement expected before.length = some hit ↔
      expected = before ++ replacement ++ after ∧ hit = ⟨before.length, before, after⟩ := by
  simp only [replacing, cut_between, Hit.filled, beq_iff_eq]
  constructor
  · intro replaced
    split at replaced
    · next same => exact ⟨same.symm, (Option.some.inj replaced).symm⟩
    · cases replaced
  · rintro ⟨rfl, rfl⟩
    rw [if_pos rfl]

theorem replacing_isSome_iff :
    (replacing (before ++ found ++ after) found replacement expected before.length).isSome = true ↔
      expected = before ++ replacement ++ after := by
  rw [Option.isSome_iff_exists]
  simp only [replacing_eq_some_iff, exists_and_left, exists_eq, and_true]

theorem replace?_isSome_iff : (replace? container found replacement expected).isSome = true ↔
    isBlankList found = false ∧ ∃ before after, container = before ++ found ++ after ∧
      expected = before ++ replacement ++ after := by
  unfold replace?
  split
  · next blank => simp [blank]
  · next filled =>
    have filled' : isBlankList found = false := by simpa using filled
    rw [List.isSome_findSome?, List.any_eq_true]
    constructor
    · intro found
      obtain ⟨i, member, hit⟩ := found
      obtain ⟨before, after, rfl, rfl⟩ := Text.mem_occurrences.1 member
      exact ⟨filled', before, after, rfl, replacing_isSome_iff.1 hit⟩
    · intro found
      obtain ⟨_, before, after, rfl, same⟩ := found
      exact ⟨before.length, Text.mem_occurrences.2 ⟨before, after, rfl, rfl⟩,
        replacing_isSome_iff.2 same⟩

-- The one side of the rule stands in the left target side where the other one stands
-- in the right target side.
def Stands (target rule : Sides) : Prop :=
  ∃ before after, target.left = before ++ rule.left ++ after ∧
    target.right = before ++ rule.right ++ after

theorem substitution_isSome_iff : (substitution target rule).isSome = true ↔
    (isBlankList rule.left = false ∨ isBlankList rule.right = false) ∧
      (Stands target rule ∨ Stands target rule.reverse) := by
  have tried : (substitution target rule).isSome = true ↔
      (replace? target.left rule.left rule.right target.right).isSome = true ∨
      (replace? target.left rule.right rule.left target.right).isSome = true ∨
      (replace? target.right rule.left rule.right target.left).isSome = true ∨
      (replace? target.right rule.right rule.left target.left).isSome = true := by
    unfold substitution
    cases replace? target.left rule.left rule.right target.right <;>
    cases replace? target.left rule.right rule.left target.right <;>
    cases replace? target.right rule.left rule.right target.left <;>
    cases replace? target.right rule.right rule.left target.left <;> simp
  rw [tried, replace?_isSome_iff, replace?_isSome_iff, replace?_isSome_iff, replace?_isSome_iff]
  constructor
  · rintro (⟨filled, before, after, left, right⟩ | ⟨filled, before, after, left, right⟩ |
      ⟨filled, before, after, right, left⟩ | ⟨filled, before, after, right, left⟩)
    · exact ⟨.inl filled, .inl ⟨before, after, left, right⟩⟩
    · exact ⟨.inr filled, .inr ⟨before, after, left, right⟩⟩
    · exact ⟨.inl filled, .inr ⟨before, after, left, right⟩⟩
    · exact ⟨.inr filled, .inl ⟨before, after, left, right⟩⟩
  · rintro ⟨filled | filled, ⟨before, after, left, right⟩ | ⟨before, after, left, right⟩⟩
    · exact .inl ⟨filled, before, after, left, right⟩
    · exact .inr (.inr (.inl ⟨filled, before, after, right, left⟩))
    · exact .inr (.inr (.inr ⟨filled, before, after, right, left⟩))
    · exact .inr (.inl ⟨filled, before, after, left, right⟩)

end InContext

namespace WholeSide

variable {target rule : Sides}

def SameShape (target rule : Sides) : Prop :=
  shape target.left = shape rule.left ∧ shape target.right = shape rule.right

theorem commutativity_isSome_iff : (commutativity target rule).isSome = true ↔
    target.reverse = rule ∨ SameShape target.reverse rule ∧ renumbered target.reverse = rule := by
  obtain ⟨tl, tr⟩ := target
  obtain ⟨rl, rr⟩ := rule
  simp only [commutativity, Sides.reverse, SameShape, Bool.and_eq_true, beq_iff_eq, Sides.mk.injEq]
  by_cases reversed : tl = rr ∧ tr = rl
  · simp [reversed]
  · have reversed' : ¬ (tr = rl ∧ tl = rr) := fun both => reversed both.symm
    rw [if_neg reversed]
    simp only [reversed', false_or]
    split
    · next same => simp [same]
    · next other =>
      simp only [Option.isSome_none, Bool.false_eq_true, false_iff]
      exact other

end WholeSide

theorem infer?_isSome_cases {target rule : Sides} : (infer? target rule).isSome = true ↔
    target = rule ∨ target.reverse = rule ∨
    (WholeSide.SameShape target.reverse rule ∧ WholeSide.renumbered target.reverse = rule) ∨
    ((InContext.isBlankList rule.left = false ∨ InContext.isBlankList rule.right = false) ∧
      (InContext.Stands target rule ∨ InContext.Stands target rule.reverse)) := by
  rw [infer?_isSome_iff]
  constructor
  · intro found
    obtain ⟨law, _, holds⟩ := found
    cases law with
    | exact => exact .inl ((WholeSide.exact_isSome _ _).1 holds)
    | commutativity =>
      cases WholeSide.commutativity_isSome_iff.1 holds with
      | inl reversed => exact .inr (.inl reversed)
      | inr renumbered => exact .inr (.inr (.inl renumbered))
    -- A chain through a common side is one of the first two cases again.
    | transitivity =>
      cases WholeSide.exact_or_commutes_of_transitive holds with
      | inl same => exact .inl same
      | inr reversed => exact .inr (.inl (by rw [reversed]; rfl))
    | substitution => exact .inr (.inr (.inr (InContext.substitution_isSome_iff.1 holds)))
  · rintro (same | reversed | renumbered | substituted)
    · exact ⟨.exact, by decide, (WholeSide.exact_isSome _ _).2 same⟩
    · exact ⟨.commutativity, by decide, WholeSide.commutativity_isSome_iff.2 (.inl reversed)⟩
    · exact ⟨.commutativity, by decide, WholeSide.commutativity_isSome_iff.2 (.inr renumbered)⟩
    · exact ⟨.substitution, by decide, InContext.substitution_isSome_iff.2 substituted⟩

end OperatorCalculus
