import Mathlib.Data.List.Permutation
import OperatorCalculus.Proofs.Inference.Acceptance
import OperatorCalculus.Proofs.Search.Verdict

namespace OperatorCalculus

namespace Session

open Expression

theorem matched_isInstance (rules : List Rule) (start goal : Text)
    (guarded : ∀ r ∈ rules, r.Guarded) (unglued : Unglued start) (unglued' : Unglued goal)
    (matched : (decide rules start goal).status = .matched) :
    ∃ step, (decide rules start goal).matchedStep? = some step ∧ step.rule ∈ rules ∧
      IsInstance step.rule.left step.rule.right start goal := by
  obtain ⟨step, first, member, hit⟩ := step_of_matched matched
  obtain ⟨inRules, accepted⟩ := Sequential.accepts_of_step member hit
  obtain ⟨plain, plain', wrapped, wrapped'⟩ := guarded step.rule inRules
  refine ⟨step, first, inRules, ?_⟩
  cases accepted with
  | inl forward => exact isInstance_of_infer unglued unglued' plain plain' wrapped wrapped' forward
  | inr reverse =>
    exact (isInstance_of_infer unglued unglued' plain' plain wrapped' wrapped reverse).symm

theorem matched_isInstance_call :
    let rules := [Rule.between ", a \\Oa b,".toList ", b \\Oa a,".toList]
    let start := ", x \\Oa R(y), z".toList
    let goal := ", R(y) \\Oa x, z".toList
    (∀ r ∈ rules, r.Guarded) ∧ Unglued start ∧ Unglued goal ∧
      (decide rules start goal).status = .matched ∧
      IsInstance ", a \\Oa b,".toList ", b \\Oa a,".toList start goal := by
  intro rules start goal
  have plain : Unglued ", a \\Oa b,".toList := isUnglued_iff.1 (by decide_cbv)
  have plain' : Unglued ", b \\Oa a,".toList := isUnglued_iff.1 (by decide_cbv)
  have wrapped : Wrapped ", a \\Oa b,".toList := isWrapped_iff.1 (by decide_cbv)
  have wrapped' : Wrapped ", b \\Oa a,".toList := isWrapped_iff.1 (by decide_cbv)
  have unglued : Unglued ", x \\Oa R(y), z".toList := isUnglued_iff.1 (by decide_cbv)
  have unglued' : Unglued ", R(y) \\Oa x, z".toList := isUnglued_iff.1 (by decide_cbv)
  have accepted : (infer?
      (WholeSide.renumbered ⟨", x \\Oa R(y), z".toList, ", R(y) \\Oa x, z".toList⟩)
      (WholeSide.renumbered ⟨", a \\Oa b,".toList, ", b \\Oa a,".toList⟩)).isSome = true := by
    decide_cbv
  have guarded : ∀ r ∈ rules, r.Guarded := by
    intro r member
    rw [List.mem_singleton.1 member]
    exact ⟨plain, plain', wrapped, wrapped'⟩
  have matched : (decide rules start goal).status = .matched := by
    refine decide_matched_iff.2 ⟨?_, _, List.mem_singleton_self _, .inl accepted⟩
    intro blank
    rcases blank with empty | empty <;> cases empty
  obtain ⟨step, _, inRules, found⟩ :=
    matched_isInstance rules start goal guarded unglued unglued' matched
  rw [List.mem_singleton.1 inRules] at found
  exact ⟨guarded, unglued, unglued', matched, found⟩

end Session
end OperatorCalculus
