import OperatorCalculus.Proofs.Expression.Numbering
import OperatorCalculus.Proofs.Search.Halting

namespace OperatorCalculus

namespace Expression

theorem allBlank_canonicalPair (left right : Text) :
    (canonicalPair left right).1.all Text.isBlank = left.all Text.isBlank ∧
      (canonicalPair left right).2.all Text.isBlank = right.all Text.isBlank := by
  obtain ⟨ps, first, rfl⟩ := Reads.exists_of_text left false
  obtain ⟨qs, second, rfl⟩ := Reads.exists_of_text right false
  rw [first.canonicalPair_text second]
  exact ⟨first.all_numbered _ fun _ => Text.isBlank_of_isWord,
    second.all_numbered _ fun _ => Text.isBlank_of_isWord⟩

end Expression

namespace Search

variable {start goal : Text}

def Blank (start goal : Text) : Prop :=
  start.all Text.isBlank = true ∨ goal.all Text.isBlank = true

theorem begin_of_blank (blank : Blank start goal) :
    (Search.begin start goal).halted = true ∧
      (Search.begin start goal).result = ⟨some false, [], .empty⟩ := by
  have refused : ((Text.trim start).isEmpty || (Text.trim goal).isEmpty) = true := by
    rw [Text.isEmpty_trim, Text.isEmpty_trim, Bool.or_eq_true]
    exact blank
  simp only [Search.begin, refused, if_true]
  exact ⟨rfl, rfl⟩

theorem begin_of_text (text : ¬ Blank start goal) :
    (Search.begin start goal).status = .running := by
  have sides : ((Text.trim start).isEmpty || (Text.trim goal).isEmpty) = false := by
    rw [Text.isEmpty_trim, Text.isEmpty_trim, Bool.eq_false_iff, ne_eq, Bool.or_eq_true]
    exact text
  have forms : ((Expression.normalizePair start goal).left.isEmpty ||
      (Expression.normalizePair start goal).right.isEmpty) = false := by
    have same := Expression.allBlank_canonicalPair start goal
    simp only [Normalized.isEmpty, Normalized.isEmptyForm, Text.isEmpty_trim]
    rw [Text.isEmpty_trim, Text.isEmpty_trim, ← same.1, ← same.2] at sides
    exact sides
  simp only [Search.begin, sides, forms, Bool.false_eq_true, if_false]

end Search

def Rule.Accepts (r : Rule) (start goal : Text) : Prop :=
  (infer? (WholeSide.renumbered ⟨start, goal⟩) (WholeSide.renumbered ⟨r.left, r.right⟩)).isSome =
      true ∨
    (infer? (WholeSide.renumbered ⟨start, goal⟩) (WholeSide.renumbered ⟨r.right, r.left⟩)).isSome =
      true

namespace Sequential

variable {rules : List Rule} {start goal : Text}

theorem accepts_iff (i : Nat) (r : Rule) (start goal : Text) : r.Accepts start goal ↔
    (Check.inDirection (target start goal) r .leftToRight (PreparedRule.of i r).forward).isMatch =
        true ∨
      (Check.inDirection (target start goal) r .rightToLeft (PreparedRule.of i r).reverse).isMatch =
        true := by
  rw [Check.inDirection_isMatch, Check.inDirection_isMatch]
  exact Iff.rfl

theorem accepts_of_step {step : ProofStep} (member : step ∈ steps rules start goal)
    (hit : step.isMatch = true) : step.rule ∈ rules ∧ step.rule.Accepts start goal := by
  obtain ⟨p, inRules, n, place⟩ := mem_search member
  obtain ⟨i, inside, rfl⟩ := List.mem_mapIdx.1 inRules
  have own : rules[i] ∈ rules := List.getElem_mem inside
  cases place with
  | inl same =>
    have rule : step.rule = rules[i] := by rw [same, checked_rule]; rfl
    rw [same, checked_isMatch] at hit
    rw [rule]
    exact ⟨own, (accepts_iff i _ _ _).2 (.inl hit)⟩
  | inr same =>
    have rule : step.rule = rules[i] := by rw [same, checked_rule]; rfl
    rw [same, checked_isMatch] at hit
    rw [rule]
    exact ⟨own, (accepts_iff i _ _ _).2 (.inr hit)⟩

theorem finds_steps_iff : Finds (steps rules start goal) ↔ ∃ r ∈ rules, r.Accepts start goal := by
  constructor
  · intro found
    obtain ⟨step, member, hit⟩ := found
    exact ⟨step.rule, accepts_of_step member hit⟩
  · intro accepted
    obtain ⟨r, member, accepts⟩ := accepted
    obtain ⟨i, inside, rfl⟩ := List.mem_iff_getElem.1 member
    exact finds_of_match (List.mem_mapIdx.2 ⟨i, inside, rfl⟩) ((accepts_iff i _ _ _).1 accepts)

end Sequential

def FanOut.Answers (f : FanOut) : Prop :=
  ∀ number checks, ∃ answer, (f number checks).checks = .ok answer

theorem FanOut.inTurn_answers : FanOut.inTurn.Answers := fun _ checks => ⟨checks, rfl⟩

namespace Session

variable {rules : List PreparedRule} {o : SearchOptions} {s : Session}

theorem call_succeeds (answers : o.fanOut.Answers)
    (rules : List PreparedRule) (s : Session) : (call o rules s).failure = none := by
  rw [call_failure]
  have turn := batch_turn o rules s
  generalize batch o rules s = t at turn ⊢
  cases turn with
  | failed live free more fails =>
    obtain ⟨answer, given⟩ := answers (s.search.batches + 1)
      ((chosen o rules s.search).map (Check.of s.search.target))
    rw [reply, given] at fails
    cases fails
  | settled => exact (settle_cases o _ _ _ _).1
  | halted => rfl
  | refused => rfl
  | spent => rfl
  | discarded => rfl

theorem run_succeeds (answers : o.fanOut.Answers)
    (yieldEvery : Int) (rules : List PreparedRule) (s : Session) :
    (run o yieldEvery rules s).failure = none := by
  obtain ⟨n, calls⟩ := run_calls o yieldEvery rules s
  generalize run o yieldEvery rules s = t at calls
  induction calls with
  | idle => rfl
  | failed live fails =>
    rw [call_succeeds answers] at fails
    cases fails
  | more live ok later ih => exact ih

theorem decide_of_blank {start goal : Text} (rules : List Rule) (blank : Search.Blank start goal) :
    decide rules start goal = ⟨some false, [], .empty⟩ := by
  obtain ⟨stopped, result⟩ := Search.begin_of_blank blank
  simp only [decide, prove, stopped, if_true, result]

theorem prove_of_text {start goal : Text} (undisturbed : o.Undisturbed) (answers : o.fanOut.Answers)
    (yieldEvery : Int) (rules : List Rule) (text : ¬ Search.Blank start goal) :
    (prove o yieldEvery (PreparedRule.all rules) false start goal).failure = none ∧
      (prove o yieldEvery (PreparedRule.all rules) false start goal).session.search.result =
        ⟨some (Decidable.decide (Sequential.Finds (Sequential.steps rules start goal))),
          Sequential.steps rules start goal,
          if Sequential.Finds (Sequential.steps rules start goal) then .matched else .exhausted⟩ := by
  have running := Search.begin_of_text text
  have live : (Search.begin start goal).halted = false := by rw [Search.halted, running]; rfl
  have ordered := PreparedRule.all_inOrder rules
  have tracks : Tracks (Sequential.target start goal) (PreparedRule.all rules)
      ⟨.begin start goal, false⟩ := begin_tracks running
  have succeeds := run_succeeds answers yieldEvery (PreparedRule.all rules)
    ⟨.begin start goal, false⟩
  have stopped := run_ends undisturbed.1 yieldEvery succeeds
  obtain ⟨n, calls⟩ := run_calls o yieldEvery (PreparedRule.all rules) ⟨.begin start goal, false⟩
  obtain ⟨steps, status, verdict⟩ := (calls_track undisturbed ordered calls tracks).stopped stopped
  rw [steps] at status verdict
  simp only [prove, live, Bool.false_eq_true, if_false, Search.result, steps, status, verdict]
  exact ⟨succeeds, rfl⟩

theorem decide_of_text {start goal : Text} (rules : List Rule) (text : ¬ Search.Blank start goal) :
    decide rules start goal =
      ⟨some (Decidable.decide (Sequential.Finds (Sequential.steps rules start goal))),
        Sequential.steps rules start goal,
        if Sequential.Finds (Sequential.steps rules start goal) then .matched else .exhausted⟩ :=
  (prove_of_text SearchOptions.standard_undisturbed FanOut.inTurn_answers standardYield rules text).2

theorem decide_matched_iff {rules : List Rule} {start goal : Text} :
    (decide rules start goal).status = .matched ↔
      ¬ Search.Blank start goal ∧ ∃ r ∈ rules, r.Accepts start goal := by
  by_cases blank : Search.Blank start goal
  · rw [decide_of_blank rules blank]
    simp [blank]
  · rw [decide_of_text rules blank, ← Sequential.finds_steps_iff]
    by_cases found : Sequential.Finds (Sequential.steps rules start goal)
    · simp [found, blank]
    · simp [found]

theorem verdict_iff {rules : List Rule} {start goal : Text} :
    (decide rules start goal).verdict = some true ↔ (decide rules start goal).status = .matched := by
  by_cases blank : Search.Blank start goal
  · rw [decide_of_blank rules blank]
    simp
  · rw [decide_of_text rules blank]
    by_cases found : Sequential.Finds (Sequential.steps rules start goal)
    · simp [found]
    · simp [found]

theorem verdict_isSome (rules : List Rule) (start goal : Text) :
    (decide rules start goal).verdict.isSome = true := by
  by_cases blank : Search.Blank start goal
  · rw [decide_of_blank rules blank]
    rfl
  · rw [decide_of_text rules blank]
    rfl

theorem step_of_matched {rules : List Rule} {start goal : Text}
    (matched : (decide rules start goal).status = .matched) :
    ∃ step, (decide rules start goal).matchedStep? = some step ∧
      step ∈ Sequential.steps rules start goal ∧ step.isMatch = true := by
  obtain ⟨blank, accepted⟩ := decide_matched_iff.1 matched
  rw [decide_of_text rules blank]
  have found := (Sequential.find?_isSome_iff_finds _).2 (Sequential.finds_steps_iff.2 accepted)
  obtain ⟨step, first⟩ := Option.isSome_iff_exists.1 found
  exact ⟨step, first, List.mem_of_find?_eq_some first, List.find?_some first⟩

theorem decide_congr {start goal start' goal' : Text}
    (same : Expression.canonicalPair start' goal' = Expression.canonicalPair start goal)
    (rules : List Rule) : decide rules start' goal' = decide rules start goal := by
  have blanks : Search.Blank start' goal' ↔ Search.Blank start goal := by
    have first := Expression.allBlank_canonicalPair start goal
    have second := Expression.allBlank_canonicalPair start' goal'
    rw [same] at second
    unfold Search.Blank
    rw [← first.1, ← first.2, ← second.1, ← second.2]
  by_cases blank : Search.Blank start goal
  · rw [decide_of_blank rules blank, decide_of_blank rules (blanks.2 blank)]
  · have steps : Sequential.steps rules start' goal' = Sequential.steps rules start goal := by
      rw [Sequential.steps, Sequential.steps, Sequential.target, Sequential.target, same]
    rw [decide_of_text rules blank, decide_of_text rules (blanks.not.2 blank), steps]

end Session
end OperatorCalculus
