import OperatorCalculus.Proofs.Latex.Recall
import OperatorCalculus.Proofs.Latex.Side

namespace OperatorCalculus

namespace Source

variable {path : Text} {lines : List Text} {i : Nat} {said : Nat → Option Bool}
  {sides : RuleLine.Sides}

-- Yes was said before a place, and neither no nor a heading came after that.
def Standing (lines : List Text) (said : Nat → Option Bool) (i : Nat) : Prop :=
  ∃ j < i, said j = some true ∧ (∀ k, j < k → k < i → said k ≠ some false) ∧
    ∀ k, j < k → k ≤ i → headedAt lines k = false

-- A rule line is not the first of its run when one without a left side stands before it and
-- neither a rule line with a left side nor a heading stands between.
def LaterInRun (lines : List Text) (i : Nat) : Prop := Standing lines (emptyAt? lines) i

-- A proof was announced and neither ended nor left by a heading. Comments do not count here,
-- and a line with both markers announces one.
def ProofPending (lines : List Text) (i : Nat) : Prop := Standing lines (markAt? lines) i

theorem recent_isSome {j : Nat} {b : Bool} (before : j < i) (told : said j = some b)
    (unheaded : ∀ k, j < k → k ≤ i → headedAt lines k = false) :
    (recent lines said i).isSome = true := by
  induction i with
  | zero => cases before
  | succ i ih =>
    rw [recent_of_unheaded (unheaded _ before (Nat.le_refl _)), latest_succ]
    rcases Nat.lt_succ_iff_lt_or_eq.1 before with within | rfl
    · have earlier := ih within fun k above below => unheaded k above (Nat.le_succ_of_le below)
      cases said i with
      | some b => rfl
      | none => exact earlier
    · rw [told]
      rfl

theorem recent_eq_true_iff : recent lines said i = some true ↔ Standing lines said i := by
  constructor
  · intro found
    obtain ⟨j, before, told, silent, unheaded⟩ := recent_eq_some_iff.1 found
    refine ⟨j, before, told, fun k above below denied => ?_, unheaded⟩
    cases (silent k above below).symm.trans denied
  · intro ⟨j, before, told, undenied, unheaded⟩
    obtain ⟨b, found⟩ := Option.isSome_iff_exists.1 (recent_isSome before told unheaded)
    cases b with
    | true => exact found
    | false =>
      -- The last no cannot stand behind the yes, nor before it, since it is the last word.
      obtain ⟨k, below, denied, silent, _⟩ := recent_eq_some_iff.1 found
      rcases Nat.lt_trichotomy j k with above | rfl | under
      · exact absurd denied (undenied k above below)
      · cases told.symm.trans denied
      · cases told.symm.trans (silent j under before)

def filedLeft (path : Text) (lines : List Text) (i : Nat) (sides : RuleLine.Sides) : Text :=
  RuleLine.clean (if sides.left = RuleLine.repetition then
    (recent lines (leftAt? path lines) i).getD sides.left else sides.left)

def filedRight (path : Text) (lines : List Text) (i : Nat) (sides : RuleLine.Sides) : Text :=
  RuleLine.clean (if sides.repeats = true then
    (recent lines (rightAt? path lines) i).getD sides.right else sides.right)

theorem leftAt?_filled {j : Nat} {t : Text} (told : leftAt? path lines j = some t) : t ≠ [] := by
  obtain ⟨_, _, inSides⟩ := Option.bind_eq_some_iff.1 told
  obtain ⟨sides, _, own⟩ := Option.bind_eq_some_iff.1 inSides
  unfold ownLeft? at own
  split at own
  · cases own
  · cases own
    exact RuleLine.wrap_ne_nil _

theorem rightAt?_filled {j : Nat} {t : Text} (told : rightAt? path lines j = some t) : t ≠ [] := by
  obtain ⟨_, _, inSides⟩ := Option.bind_eq_some_iff.1 told
  obtain ⟨sides, _, own⟩ := Option.bind_eq_some_iff.1 inSides
  unfold ownRight? at own
  split at own
  · cases own
  · cases own
    exact RuleLine.wrap_ne_nil _

theorem leftOf_contextAt (path : Text) (lines : List Text) (i : Nat) (sides : RuleLine.Sides) :
    (contextAt path lines i).leftOf sides = filedLeft path lines i sides := by
  unfold Context.leftOf filedLeft Context.expandLeft
  rw [(contextAt_tells path lines i).left]
  cases found : recent lines (leftAt? path lines) i with
  | none => simp
  | some t =>
    obtain ⟨j, _, told, _⟩ := recent_eq_some_iff.1 found
    simp [leftAt?_filled told]

theorem rightOf_contextAt (path : Text) (lines : List Text) (i : Nat) (sides : RuleLine.Sides) :
    (contextAt path lines i).rightOf sides = filedRight path lines i sides := by
  unfold Context.rightOf filedRight Context.expandRight
  rw [(contextAt_tells path lines i).right]
  cases found : recent lines (rightAt? path lines) i with
  | none => simp
  | some t =>
    obtain ⟨j, _, told, _⟩ := recent_eq_some_iff.1 found
    simp [rightAt?_filled told]

theorem sides_of_filed {r : Rule} (filed : filedAt? path lines i = some r)
    (stated : sidesAt? lines i = some sides) :
    r.left = RuleLine.wrap (filedLeft path lines i sides) ∧
      r.right = RuleLine.wrap (filedRight path lines i sides) := by
  have given := (step_with_sides path stated).2
  rw [filed] at given
  split at given
  · cases given
  · cases given
    rw [Context.ruleOf_left, Context.ruleOf_right, leftOf_contextAt, rightOf_contextAt]
    exact ⟨rfl, rfl⟩

theorem drops_contextAt_iff (path : Text) (lines : List Text) (i : Nat) (sides : RuleLine.Sides) :
    (contextAt path lines i).drops sides = true ↔
    emptyLeft sides = true ∧ (LaterInRun lines i ∨ ProofPending lines i) ∨
      filedLeft path lines i sides = [] ∧ filedRight path lines i sides = [] := by
  have tells := contextAt_tells path lines i
  have run : (0 < (contextAt path lines i).emptyRun) ↔ LaterInRun lines i := by
    rw [LaterInRun, ← recent_eq_true_iff, ← decide_eq_true_iff (p := 0 < _), tells.run]
    cases recent lines (emptyAt? lines) i <;> simp
  have pending : (contextAt path lines i).pendingProof = true ↔ ProofPending lines i := by
    rw [tells.proof, ProofPending, ← recent_eq_true_iff]
    cases recent lines (markAt? lines) i <;> simp
  unfold Context.drops
  rw [leftOf_contextAt, rightOf_contextAt]
  simp only [Bool.or_eq_true, Bool.and_eq_true, decide_eq_true_iff, List.isEmpty_iff, run, pending]

theorem not_pending_of_plain_markers
    (plain : ∀ l ∈ lines, ProofBlock.closes l = true →
      ProofBlock.opens l = false ∧ isSilent (Text.trim l) = false)
    (stated : sidesAt? lines i = some sides) : ¬ ProofPending lines i := by
  intro ⟨j, before, begun, unended, _⟩
  obtain ⟨start, atStart, marked⟩ := Option.bind_eq_some_iff.1 begun
  have opened : ProofBlock.opens start = true := by
    unfold proofMark? at marked
    rw [← ProofBlock.opens_trim]
    split at marked
    · cases marked
    · split at marked
      · next found => exact found
      · split at marked <;> cases marked
  have closed : ProofBlock.Closed (lines.take i) := by
    obtain ⟨line, shown, _⟩ := Option.bind_eq_some_iff.1 stated
    obtain ⟨_, _, _, outside⟩ := line_of_lineAt? shown
    exact ProofBlock.closed_iff.2 outside
  have startTaken : (lines.take i)[j]? = some start := by rw [List.getElem?_take_of_lt before, atStart]
  -- The end marker that closes the block is read as well, and so ends the proof.
  obtain ⟨k, stop, behind, atStop, ended⟩ := closed j start startTaken opened
  have below : k < i := by
    have inRange := (List.getElem?_eq_some_iff.1 atStop).1
    rw [List.length_take] at inRange
    omega
  rw [List.getElem?_take_of_lt below] at atStop
  obtain ⟨noStart, spoken⟩ := plain stop (List.mem_of_getElem? atStop) ended
  rcases Nat.lt_or_eq_of_le behind with above | rfl
  · apply unended k above below
    have mark : proofMark? stop = some false := by
      simp [proofMark?, spoken, ProofBlock.opens_trim, ProofBlock.closes_trim, noStart, ended]
    rw [markAt?, atStop, Option.bind_some, mark]
  · cases atStart.symm.trans atStop
    cases noStart.symm.trans opened

-- The rules of a source are those filed from its rule lines, one from a line or none, in the
-- order of the lines. A rule line is passed over when both its sides are empty as they would
-- be filed; when it has no left side and is not the first of its run; and when it has no left
-- side while a proof is pending. The last never happens where each end marker stands in a
-- line that is no comment and has no start marker.
theorem rule_lines_filed (document path : Text) :
    let lines := Text.lines document
    rules document path = (List.range lines.length).filterMap (filedAt? path lines) ∧
    (∀ i, sidesAt? lines i = none → filedAt? path lines i = none) ∧
    (∀ i sides, sidesAt? lines i = some sides →
      ((filedAt? path lines i).isSome = true ↔
        ¬ (filedLeft path lines i sides = [] ∧ filedRight path lines i sides = []) ∧
        ¬ (emptyLeft sides = true ∧ (LaterInRun lines i ∨ ProofPending lines i)))) ∧
    (∀ i sides r, sidesAt? lines i = some sides → filedAt? path lines i = some r →
      r.left = RuleLine.wrap (filedLeft path lines i sides) ∧
        r.right = RuleLine.wrap (filedRight path lines i sides)) ∧
    ((∀ l ∈ lines, ProofBlock.closes l = true →
        ProofBlock.opens l = false ∧ isSilent (Text.trim l) = false) →
      ∀ i sides, sidesAt? lines i = some sides → ¬ ProofPending lines i) := by
  intro lines
  refine ⟨rulesOf_eq_filterMap lines path, ?_, ?_, ?_, ?_⟩
  · exact fun i ruleless => (step_without_sides path ruleless).2
  · intro i sides stated
    have filed := (step_with_sides path stated).2
    rw [filed, ← not_or, or_comm, ← drops_contextAt_iff path lines i sides]
    split
    · next drops => simp [drops]
    · next kept => simp [kept]
  · exact fun i sides r stated filed => sides_of_filed filed stated
  · exact fun plain i sides stated => not_pending_of_plain_markers plain stated

theorem rule_lines_filed_of_runs :
    let document := Text.join ['\n'] ["\\[, \\Rq ,i,\\]".toList, "\\[, \\Rq ,j,\\]".toList,
      "proof:\\".toList, "\\[, \\Rq ,k,\\]".toList, "\\end\x7bmath\x7d".toList,
      "\\section\x7bUnits\x7d".toList, "\\[, \\Rq ,l,\\]".toList]
    let lines := Text.lines document
    (∀ l ∈ lines, ProofBlock.closes l = true →
      ProofBlock.opens l = false ∧ isSilent (Text.trim l) = false) ∧
    (∀ i sides, sidesAt? lines i = some sides →
      ((filedAt? ['a'] lines i).isSome = true ↔
        ¬ (filedLeft ['a'] lines i sides = [] ∧ filedRight ['a'] lines i sides = []) ∧
        ¬ (emptyLeft sides = true ∧ LaterInRun lines i))) ∧
    (rules document ['a']).map (·.right) = [",i,".toList, ",l,".toList] := by
  intro document lines
  have plain : ∀ l ∈ lines, ProofBlock.closes l = true →
      ProofBlock.opens l = false ∧ isSilent (Text.trim l) = false := by decide +kernel
  obtain ⟨_, _, filed, _, settled⟩ := rule_lines_filed document ['a']
  refine ⟨plain, ?_, by decide +kernel⟩
  intro i sides stated
  have decided := filed i sides stated
  rwa [or_iff_left (settled plain i sides stated)] at decided

-- A proof of one line announces a proof that nothing ends, although its block is closed, and
-- the rule behind it is lost. It is the first of its run and has a right side.
theorem not_rule_lines_filed :
    let document := "\\begin\x7bmath\x7da\\end\x7bmath\x7d\n\\[, \\Rq ,i \\Or,\\]".toList
    let lines := Text.lines document
    sidesAt? lines 0 = none ∧ sidesAt? lines 1 = some ⟨[], "i \\Or".toList, false⟩ ∧
      filedRight "theorems.tex".toList lines 1 ⟨[], "i \\Or".toList, false⟩ ≠ [] ∧
      rules document "theorems.tex".toList = [] := by
  decide +kernel

end Source
end OperatorCalculus
