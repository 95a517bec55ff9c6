import OperatorCalculus.Search.State

namespace OperatorCalculus

structure PositionNote where
  side : Text
  description : Text
  offset : Option Int
  before : Option Text
  after : Option Text
deriving DecidableEq, Repr

structure StepNote where
  number : Int
  rule : Rule
  left : Text
  right : Text
  direction : Text
  outcome : Text
  law : Option Text
  position : Option PositionNote
deriving DecidableEq, Repr

structure Transcript where
  verdict : Option Bool
  status : Text
  steps : List StepNote
deriving DecidableEq, Repr

def Position.note (p : Position) : PositionNote :=
  ⟨p.side.name, p.description, p.offset.map Int.ofNat, p.before, p.after⟩

def ProofStep.note (s : ProofStep) : StepNote :=
  ⟨s.number, s.rule, s.left, s.right, s.direction.name, s.outcome.name, s.law.map Law.name,
    s.position.map Position.note⟩

def SearchResult.transcript (r : SearchResult) : Transcript :=
  ⟨r.verdict, r.status.name, r.steps.map ProofStep.note⟩

namespace StepNote

def isMatch (s : StepNote) : Bool := s.outcome == StepOutcome.matched.name

-- Every word but one is shown as the reverse direction.
def arrow (s : StepNote) : Text :=
  if s.direction == Direction.leftToRight.name then Direction.leftToRight.arrow
  else Direction.rightToLeft.arrow

def name (s : StepNote) : Text :=
  '#' :: Text.ofInt s.number ++ " [".toList ++ s.arrow ++ "] ".toList ++ s.rule.name

def describe (s : StepNote) : Text :=
  "ProofStep(".toList ++ s.name ++ ": ".toList ++ s.outcome ++ [')']

def context? (s : StepNote) : Option (Text × Option Text) :=
  match s.position with
  | none => none
  | some p => p.before.map fun before => (before, p.after)

end StepNote

namespace Transcript

def matchedStep? (t : Transcript) : Option StepNote := t.steps.find? StepNote.isMatch

def foundMatch (t : Transcript) : Bool := t.verdict == some true && t.matchedStep?.isSome

end Transcript

theorem ProofStep.isMatch_note (s : ProofStep) : s.note.isMatch = s.isMatch := by
  cases h : s.outcome
  all_goals
    simp only [ProofStep.note, StepNote.isMatch, ProofStep.isMatch, h]
    decide

theorem SearchResult.matchedStep?_transcript (r : SearchResult) :
    r.transcript.matchedStep? = r.matchedStep?.map ProofStep.note := by
  have same : StepNote.isMatch ∘ ProofStep.note = ProofStep.isMatch :=
    funext ProofStep.isMatch_note
  rw [SearchResult.transcript, Transcript.matchedStep?, List.find?_map, same]
  rfl

theorem SearchResult.foundMatch_transcript (r : SearchResult) :
    r.transcript.foundMatch = r.foundMatch := by
  simp only [Transcript.foundMatch, SearchResult.foundMatch, matchedStep?_transcript,
    Option.isSome_map]
  rfl

end OperatorCalculus
