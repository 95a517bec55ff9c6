import Mathlib.Data.List.Permutation
import OperatorCalculus.Proofs.Expression.Renaming
import OperatorCalculus.Proofs.Search.Verdict

namespace OperatorCalculus

namespace Session

open Expression

theorem decide_renameVariables (s : Text → Text) (start goal : Text)
    (renames : Renames s start goal) :
    canonicalPair (renameVariables s start) (renameVariables s goal) = canonicalPair start goal ∧
      ∀ rules, decide rules (renameVariables s start) (renameVariables s goal) =
        decide rules start goal := by
  have same := canonicalPair_renameVariables renames
  exact ⟨same, decide_congr same⟩

theorem decide_renameVariables_letters :
    let s : Text → Text := fun v =>
      if v = ['a'] then ['a', '7', '_', '0'] else if v = ['b'] then ['a'] else v
    let start : Text := [',', 'a', ' ', '\\', 'a', ' ', 'b', ')', 'R', '(', 'b', ')']
    let goal : Text := [',', 'c', '_', '1', ',', 'a', ' ', 'i', 'f', '(']
    Renames s start goal ∧
      renameVariables s start =
        [',', 'a', '7', '_', '0', ' ', '\\', 'a', ' ', 'a', ')', 'R', '(', 'b', ')'] ∧
      ∀ rules, decide rules (renameVariables s start) (renameVariables s goal) =
        decide rules start goal := by
  intro s start goal
  have inStart : variableNames start = [['a'], ['b']] := by cbv
  have inGoal : variableNames goal = [['c', '_', '1'], ['a']] := by cbv
  have cases_ : ∀ v, v ∈ variableNames start ∨ v ∈ variableNames goal →
      v = ['a'] ∨ v = ['b'] ∨ v = ['c', '_', '1'] := by
    intro v member
    rw [inStart, inGoal] at member
    simp only [List.mem_cons, List.not_mem_nil, or_false] at member
    tauto
  have renames : Renames s start goal := by
    constructor
    · intro v inV w inW same
      rcases cases_ v inV with rfl | rfl | rfl <;> rcases cases_ w inW with rfl | rfl | rfl <;>
        first | rfl | exact absurd same (by decide)
    · intro v inV
      rcases cases_ v inV with rfl | rfl | rfl <;>
        exact ⟨by decide, by decide⟩
  exact ⟨renames, by cbv, (decide_renameVariables s start goal renames).2⟩

end Session
end OperatorCalculus
