import Mathlib.Data.List.Permutation
import OperatorCalculus.Proofs.Inference.Acceptance
import OperatorCalculus.Proofs.Search.Verdict

-- The two sides of a target exchanged. Whole targets are answered as before. A rule
-- that stands in a context is looked for under the numbers it has on its own, and the
-- side that is read first decides which numbers the target has: the answer can change.
namespace OperatorCalculus

namespace Rule

open Expression

variable {r : Rule} {start goal : Text}

def IsWhole (r : Rule) (start goal : Text) : Prop :=
  Expression.IsWhole r.left r.right start goal ∨ Expression.IsWhole r.right r.left start goal

-- Where the rule stands is the same for the exchanged target; its numbers need not be.
def Substitutes (r : Rule) (start goal : Text) : Prop :=
  (InContext.isBlankList r.left = false ∨ InContext.isBlankList r.right = false) ∧
    (StandsNumbered r.left r.right start goal ∨ StandsNumbered r.right r.left start goal)

theorem accepts_iff (guarded : r.Guarded) (unglued : Unglued start) (unglued' : Unglued goal) :
    r.Accepts start goal ↔ r.IsWhole start goal ∨ r.Substitutes start goal := by
  obtain ⟨plain, plain', wrapped, wrapped'⟩ := guarded
  have forward := infer_iff unglued unglued' plain plain' wrapped wrapped'
  have reverse := infer_iff unglued unglued' plain' plain wrapped' wrapped
  have whole : ∀ left right, Expression.IsWhole left right start goal →
      (infer? (WholeSide.renumbered ⟨start, goal⟩)
        (WholeSide.renumbered ⟨left, right⟩)).isSome = true :=
    fun _ _ same => infer?_isSome_cases.2 (.inl same)
  constructor
  · intro accepts
    cases accepts with
    | inl found =>
      rcases forward.1 (.inl found) with same | reversed | ⟨filled, stands⟩
      · exact .inl (.inl same)
      · exact .inl (.inr reversed)
      · exact .inr ⟨filled, .inl stands⟩
    | inr found =>
      rcases reverse.1 (.inl found) with same | reversed | ⟨filled, stands⟩
      · exact .inl (.inr same)
      · exact .inl (.inl reversed)
      · exact .inr ⟨filled.symm, .inr stands⟩
  · intro found
    rcases found with (same | reversed) | ⟨filled, stands | stands⟩
    · exact .inl (whole _ _ same)
    · exact .inr (whole _ _ reversed)
    · cases forward.2 (.inr (.inr ⟨filled, stands⟩)) with
      | inl found => exact .inl found
      | inr reversed => exact .inr (whole _ _ reversed)
    · cases reverse.2 (.inr (.inr ⟨filled.symm, stands⟩)) with
      | inl found => exact .inr found
      | inr same => exact .inl (whole _ _ same)

theorem isWhole_exchange (guarded : r.Guarded) (unglued : Unglued start) (unglued' : Unglued goal)
    (whole : r.IsWhole start goal) : r.IsWhole goal start := by
  cases whole with
  | inl same =>
    exact .inr (WholeSide.renumbered_exchange unglued unglued' guarded.left guarded.right same)
  | inr reversed =>
    exact .inl (WholeSide.renumbered_exchange unglued unglued' guarded.right guarded.left reversed)

end Rule

namespace Expression

variable {s : Text → Text} {left right start goal : Text}

theorem Occurs.exchange (occurs : Occurs s left right start goal) :
    Occurs s right left goal start := by
  intro f
  obtain ⟨before, after, first, second⟩ := occurs f
  exact ⟨before, after, second, first⟩

theorem StandsNumbered.exchange (same : numbering goal start = numbering start goal)
    (stands : StandsNumbered left right start goal) : StandsNumbered left right goal start := by
  obtain ⟨s, found, kept, occurs⟩ := stands
  refine ⟨s, found.exchange, ?_, ?_⟩
  · intro v place
    rw [same]
    exact kept v place
  · cases occurs with
    | inl forward => exact .inr forward.exchange
    | inr backward => exact .inl backward.exchange

end Expression

namespace Session

open Expression

theorem verdict_congr {rules : List Rule} {start goal start' goal' : Text} :
    (decide rules start' goal').verdict = (decide rules start goal).verdict ↔
      ((decide rules start' goal').status = .matched ↔
        (decide rules start goal).status = .matched) := by
  rw [← verdict_iff, ← verdict_iff]
  obtain ⟨first, same⟩ := Option.isSome_iff_exists.1 (verdict_isSome rules start goal)
  obtain ⟨second, same'⟩ := Option.isSome_iff_exists.1 (verdict_isSome rules start' goal')
  rw [same, same']
  cases first <;> cases second <;> simp

theorem accepted_iff {rules : List Rule} {start goal : Text}
    (guarded : ∀ r ∈ rules, r.Guarded) (unglued : Unglued start) (unglued' : Unglued goal) :
    (∃ r ∈ rules, r.Accepts start goal) ↔
      (∃ r ∈ rules, r.IsWhole start goal) ∨ ∃ r ∈ rules, r.Substitutes start goal := by
  constructor
  · intro accepted
    obtain ⟨r, member, accepts⟩ := accepted
    cases (Rule.accepts_iff (guarded r member) unglued unglued').1 accepts with
    | inl whole => exact .inl ⟨r, member, whole⟩
    | inr substitutes => exact .inr ⟨r, member, substitutes⟩
  · intro found
    rcases found with ⟨r, member, whole⟩ | ⟨r, member, substitutes⟩
    · exact ⟨r, member, (Rule.accepts_iff (guarded r member) unglued unglued').2 (.inl whole)⟩
    · exact ⟨r, member,
        (Rule.accepts_iff (guarded r member) unglued unglued').2 (.inr substitutes)⟩

theorem whole_exchange_iff {rules : List Rule} {start goal : Text}
    (guarded : ∀ r ∈ rules, r.Guarded) (unglued : Unglued start) (unglued' : Unglued goal) :
    (∃ r ∈ rules, r.IsWhole goal start) ↔ ∃ r ∈ rules, r.IsWhole start goal := by
  constructor
  · intro found
    obtain ⟨r, member, whole⟩ := found
    exact ⟨r, member, Rule.isWhole_exchange (guarded r member) unglued' unglued whole⟩
  · intro found
    obtain ⟨r, member, whole⟩ := found
    exact ⟨r, member, Rule.isWhole_exchange (guarded r member) unglued unglued' whole⟩

theorem verdict_exchange_iff (rules : List Rule) (start goal : Text) :
    (decide rules goal start).verdict = (decide rules start goal).verdict ↔
      Search.Blank start goal ∨
        ((∃ r ∈ rules, r.Accepts goal start) ↔ ∃ r ∈ rules, r.Accepts start goal) := by
  have blanks : Search.Blank goal start ↔ Search.Blank start goal := or_comm
  rw [verdict_congr, decide_matched_iff, decide_matched_iff, blanks]
  by_cases blank : Search.Blank start goal
  · simp only [blank, not_true_eq_false, false_and, true_or]
  · simp only [blank, not_false_eq_true, true_and, false_or]

theorem substitutes_exchange {rules : List Rule} {start goal : Text}
    (same : numbering goal start = numbering start goal)
    (found : ∃ r ∈ rules, r.Substitutes start goal) : ∃ r ∈ rules, r.Substitutes goal start := by
  obtain ⟨r, member, filled, stands⟩ := found
  refine ⟨r, member, filled, ?_⟩
  cases stands with
  | inl forward => exact .inl (forward.exchange same)
  | inr reverse => exact .inr (reverse.exchange same)

-- The answer stays exactly when some rule is accepted in both orders of the sides or
-- none in either. For rules as they are written only a substitution can tell the orders
-- apart, and only when the two orders number the operands differently.
theorem verdict_exchange (rules : List Rule) (start goal : Text) :
    ((decide rules goal start).verdict = (decide rules start goal).verdict ↔
      Search.Blank start goal ∨
        ((∃ r ∈ rules, r.Accepts goal start) ↔ ∃ r ∈ rules, r.Accepts start goal)) ∧
    ((∀ r ∈ rules, r.Guarded) → Unglued start → Unglued goal →
      ((decide rules goal start).verdict = (decide rules start goal).verdict ↔
        Search.Blank start goal ∨ (∃ r ∈ rules, r.IsWhole start goal) ∨
          ((∃ r ∈ rules, r.Substitutes goal start) ↔ ∃ r ∈ rules, r.Substitutes start goal)) ∧
      (numbering goal start = numbering start goal →
        (decide rules goal start).verdict = (decide rules start goal).verdict)) := by
  refine ⟨verdict_exchange_iff rules start goal, ?_⟩
  intro guarded unglued unglued'
  have exact_ : (decide rules goal start).verdict = (decide rules start goal).verdict ↔
      Search.Blank start goal ∨ (∃ r ∈ rules, r.IsWhole start goal) ∨
        ((∃ r ∈ rules, r.Substitutes goal start) ↔ ∃ r ∈ rules, r.Substitutes start goal) := by
    rw [verdict_exchange_iff, accepted_iff guarded unglued unglued',
      accepted_iff guarded unglued' unglued, whole_exchange_iff guarded unglued unglued']
    by_cases whole : ∃ r ∈ rules, r.IsWhole start goal
    · simp only [whole, true_or, or_true]
    · simp only [whole, false_or]
  refine ⟨exact_, ?_⟩
  intro same
  apply exact_.2
  exact .inr (.inr ⟨substitutes_exchange same.symm, substitutes_exchange same⟩)

theorem forms_of_context :
    (infer? (WholeSide.renumbered ⟨", a \\Oa b, c".toList, ", b, c".toList⟩)
        (WholeSide.renumbered ⟨", a \\Oa b,".toList, ", b,".toList⟩)).isSome = true ∧
      (infer? (WholeSide.renumbered ⟨", b, c".toList, ", a \\Oa b, c".toList⟩)
        (WholeSide.renumbered ⟨", a \\Oa b,".toList, ", b,".toList⟩)).isSome = false ∧
      (infer? (WholeSide.renumbered ⟨", b, c".toList, ", a \\Oa b, c".toList⟩)
        (WholeSide.renumbered ⟨", b,".toList, ", a \\Oa b,".toList⟩)).isSome = false :=
  ⟨by decide_cbv, by decide_cbv, by decide_cbv⟩

theorem verdicts_of_context :
    let rules := [Rule.between ", a \\Oa b,".toList ", b,".toList]
    (decide rules ", a \\Oa b, c".toList ", b, c".toList).verdict = some true ∧
      (decide rules ", b, c".toList ", a \\Oa b, c".toList).verdict = some false := by
  intro rules
  obtain ⟨accepted, forward, reverse⟩ := forms_of_context
  constructor
  · refine verdict_iff.2 (decide_matched_iff.2 ⟨?_, _, List.mem_singleton_self _, .inl accepted⟩)
    intro blank
    rcases blank with empty | empty <;> cases empty
  · have refused : (decide rules ", b, c".toList ", a \\Oa b, c".toList).verdict ≠ some true := by
      intro positive
      obtain ⟨_, r, member, accepts⟩ := decide_matched_iff.1 (verdict_iff.1 positive)
      rw [List.mem_singleton.1 member] at accepts
      cases accepts with
      | inl found => cases found.symm.trans forward
      | inr found => cases found.symm.trans reverse
    obtain ⟨answer, same⟩ := Option.isSome_iff_exists.1
      (verdict_isSome rules ", b, c".toList ", a \\Oa b, c".toList)
    cases answer with
    | true => exact absurd same refused
    | false => exact same

-- The answer does change, though the rule stands in the target either way.
theorem not_verdict_exchange : ¬ ∀ (rules : List Rule) (start goal : Text),
    (decide rules goal start).verdict = (decide rules start goal).verdict := by
  intro unchanged
  obtain ⟨positive, negative⟩ := verdicts_of_context
  rw [unchanged, positive] at negative
  cases negative

theorem verdict_exchange_context :
    let rules := [Rule.between ", a \\Oa b,".toList ", b,".toList]
    let start := ", a \\Oa b, c".toList
    let goal := ", b, c".toList
    (∀ r ∈ rules, r.Guarded) ∧ Unglued start ∧ Unglued goal ∧
      ¬ ((∃ r ∈ rules, r.Substitutes goal start) ↔ ∃ r ∈ rules, r.Substitutes start goal) := by
  intro rules start goal
  have unglued : Unglued ", a \\Oa b, c".toList := isUnglued_iff.1 (by decide_cbv)
  have unglued' : Unglued ", b, c".toList := isUnglued_iff.1 (by decide_cbv)
  have plain : Unglued ", a \\Oa b,".toList := isUnglued_iff.1 (by decide_cbv)
  have plain' : Unglued ", b,".toList := isUnglued_iff.1 (by decide_cbv)
  have wrapped : Wrapped ", a \\Oa b,".toList := isWrapped_iff.1 (by decide_cbv)
  have wrapped' : Wrapped ", b,".toList := isWrapped_iff.1 (by decide_cbv)
  have guarded : ∀ r ∈ rules, r.Guarded := by
    intro r member
    rw [List.mem_singleton.1 member]
    exact ⟨plain, plain', wrapped, wrapped'⟩
  refine ⟨guarded, unglued, unglued', fun alike => ?_⟩
  have same := ((verdict_exchange rules start goal).2 guarded unglued unglued').1.2
    (.inr (.inr alike))
  obtain ⟨positive, negative⟩ := verdicts_of_context
  cases positive.symm.trans (same.symm.trans negative)

end Session
end OperatorCalculus
