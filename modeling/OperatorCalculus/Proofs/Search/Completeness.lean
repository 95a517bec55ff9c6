import Mathlib.Data.List.Permutation
import OperatorCalculus.Proofs.Expression.Renaming
import OperatorCalculus.Proofs.Inference.Replacement
import OperatorCalculus.Proofs.Search.Schedule
import OperatorCalculus.Proofs.Search.Verdict

namespace OperatorCalculus

namespace Expression

theorem Renames.reverse {s : Text → Text} {left right : Text} (renames : Renames s left right) :
    Renames s right left := by
  obtain ⟨distinct, keeps⟩ := renames
  refine ⟨?_, fun v member => keeps v member.symm⟩
  rwa [show {v | v ∈ variableNames right ∨ v ∈ variableNames left} =
    {v | v ∈ variableNames left ∨ v ∈ variableNames right} from Set.ext fun _ => or_comm]

end Expression

namespace Session

open Expression

structure FoundBy (t : Turn) (number : Nat) : Prop where
  succeeds : t.failure = none
  status : t.session.search.status = .matched
  verdict : t.session.search.verdict = some true
  step : ∃ step, t.session.search.result.matchedStep? = some step ∧ step.number ≤ number

theorem FoundBy.mono {t : Turn} {number later : Nat} (found : FoundBy t number)
    (before : number ≤ later) : FoundBy t later := by
  obtain ⟨succeeds, status, verdict, step, first, bound⟩ := found
  exact ⟨succeeds, status, verdict, step, first, Nat.le_trans bound before⟩

variable {rules : List Rule} {k : Nat} {r : Rule} {start goal : Text} {o : SearchOptions}

theorem foundBy_of_match (place : rules[k]? = some r) (undisturbed : o.Undisturbed)
    (answers : o.fanOut.Answers) (yieldEvery : Int) (text : ¬ Search.Blank start goal)
    (accepts : r.Accepts start goal) :
    FoundBy (prove o yieldEvery (PreparedRule.all rules) false start goal) (2 * k + 1 +
      if (infer? (WholeSide.renumbered ⟨start, goal⟩)
        (WholeSide.renumbered ⟨r.left, r.right⟩)).isSome then 0 else 1) := by
  have prepared : (PreparedRule.all rules)[k]? = some (PreparedRule.of k r) := by
    simp [PreparedRule.all, place]
  obtain ⟨step, member, hit, bound⟩ := Sequential.match_by 1 prepared
    ((Sequential.accepts_iff k r start goal).1 accepts)
  obtain ⟨succeeds, result⟩ := prove_of_text undisturbed answers yieldEvery rules text
  have found : Sequential.Finds (Sequential.steps rules start goal) := ⟨step, member, hit⟩
  rw [if_pos found, decide_eq_true found] at result
  refine ⟨succeeds, congrArg SearchResult.status result, congrArg SearchResult.verdict result,
    step, ?_, ?_⟩
  · rw [result]
    exact Sequential.find?_of_match member hit
  · rw [Check.inDirection_isMatch, Nat.add_comm 1 (2 * k)] at bound
    exact bound

-- The forms of the target are those of the rule, as it is written or reversed; no rule
-- before it can do more than match first.
theorem instance_found (rules : List Rule) (k : Nat) (r : Rule) (place : rules[k]? = some r)
    (s : Text → Text) (renames : Renames s r.left r.right)
    (text : ¬ Search.Blank (renameVariables s r.left) (renameVariables s r.right))
    (o : SearchOptions) (undisturbed : o.Undisturbed) (answers : o.fanOut.Answers)
    (yieldEvery : Int) :
    FoundBy (prove o yieldEvery (PreparedRule.all rules) false
        (renameVariables s r.left) (renameVariables s r.right)) (2 * k + 1) ∧
      FoundBy (prove o yieldEvery (PreparedRule.all rules) false
        (renameVariables s r.right) (renameVariables s r.left)) (2 * k + 2) := by
  have exact_ : ∀ target : Sides, (infer? target target).isSome = true := fun _ =>
    infer?_isSome_cases.2 (.inl rfl)
  have forward : WholeSide.renumbered ⟨renameVariables s r.left, renameVariables s r.right⟩ =
      WholeSide.renumbered ⟨r.left, r.right⟩ := by
    simp only [WholeSide.renumbered, canonicalPair_renameVariables renames]
  have reverse : WholeSide.renumbered ⟨renameVariables s r.right, renameVariables s r.left⟩ =
      WholeSide.renumbered ⟨r.right, r.left⟩ := by
    simp only [WholeSide.renumbered, canonicalPair_renameVariables renames.reverse]
  constructor
  · have hit := exact_ (WholeSide.renumbered ⟨r.left, r.right⟩)
    have found := foundBy_of_match place undisturbed answers yieldEvery text
      (.inl (by rw [forward]; exact hit))
    rwa [forward, if_pos hit] at found
  · have found := foundBy_of_match place undisturbed answers yieldEvery (text ∘ Or.symm)
      (.inr (by rw [reverse]; exact exact_ _))
    refine found.mono ?_
    split <;> omega

theorem instance_found_letters :
    let s : Text → Text := fun v =>
      if v = ['a'] then ['b', '7', '_', '0'] else if v = ['b'] then ['a'] else v
    let r := Rule.between [',', 'a', ')', ' ', 'b'] [',', 'b', ' ', 'i', 'f', '(']
    let o : SearchOptions := ⟨1, false, true, none, .backwards⟩
    Renames s r.left r.right ∧
      ¬ Search.Blank (renameVariables s r.left) (renameVariables s r.right) ∧
      FoundBy (prove o 3 (PreparedRule.all [Rule.between [','] [';'], r]) false
        (renameVariables s r.right) (renameVariables s r.left)) 4 := by
  intro s r o
  have inLeft : variableNames r.left = [['a'], ['b']] := by cbv
  have inRight : variableNames r.right = [['b']] := by cbv
  have letters : ∀ v, v ∈ variableNames r.left ∨ v ∈ variableNames r.right →
      v = ['a'] ∨ v = ['b'] := by
    intro v member
    rw [inLeft, inRight] at member
    simp only [List.mem_cons, List.not_mem_nil, or_false] at member
    tauto
  have renames : Renames s r.left r.right := by
    constructor
    · intro v inV w inW same
      rcases letters v inV with rfl | rfl <;> rcases letters w inW with rfl | rfl <;>
        first | rfl | exact absurd same (by decide)
    · intro v inV
      rcases letters v inV with rfl | rfl <;> exact ⟨by decide, by decide⟩
  have left : renameVariables s r.left = [',', 'b', '7', '_', '0', ')', ' ', 'a'] := by cbv
  have right : renameVariables s r.right = [',', 'a', ' ', 'i', 'f', '('] := by cbv
  have text : ¬ Search.Blank (renameVariables s r.left) (renameVariables s r.right) := by
    rw [left, right]
    intro blank
    rcases blank with empty | empty <;> cases empty
  have answers : FanOut.backwards.Answers := fun _ checks => ⟨checks.reverse, rfl⟩
  exact ⟨renames, text, (instance_found [Rule.between [','] [';'], r] 1 r rfl s renames text o
    ⟨by decide, rfl, FanOut.backwards_shuffles⟩ answers 3).2⟩

end Session
end OperatorCalculus
