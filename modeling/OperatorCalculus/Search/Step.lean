import OperatorCalculus.Inference.Law
import OperatorCalculus.Rule.Prepared

namespace OperatorCalculus

inductive Direction where
  | leftToRight
  | rightToLeft
deriving DecidableEq, Repr

namespace Direction

def name : Direction → Text
  | .leftToRight => "left-to-right".toList
  | .rightToLeft => "right-to-left".toList

def arrow : Direction → Text
  | .leftToRight => "L->R".toList
  | .rightToLeft => "R->L".toList

end Direction

inductive StepOutcome where
  | matched
  | unmatched
  | pending
deriving DecidableEq, Repr

def StepOutcome.name : StepOutcome → Text
  | .matched => "match".toList
  | .unmatched => "no-match".toList
  | .pending => "pending".toList

structure ProofStep where
  number : Nat
  rule : Rule
  left : Text
  right : Text
  direction : Direction
  outcome : StepOutcome
  law : Option Law
  position : Option Position
deriving DecidableEq, Repr

namespace ProofStep

def isMatch (s : ProofStep) : Bool := s.outcome == .matched

def name (s : ProofStep) : Text :=
  '#' :: Text.ofNat s.number ++ " [".toList ++ s.direction.arrow ++ "] ".toList ++ s.rule.name

end ProofStep

-- The steps of one rule; their numbers are given only when the batch is complete and
-- back in the order of the rules.
structure Check where
  index : Nat
  steps : List ProofStep
deriving DecidableEq, Repr

namespace Check

def inDirection (target : Sides) (rule : Rule) (direction : Direction)
    (forms : NormalizedPair) : ProofStep :=
  let sides : Sides := ⟨forms.left.integer, forms.right.integer⟩
  match infer? target sides with
  | some f => ⟨0, rule, sides.left, sides.right, direction, .matched, some f.law, some f.position⟩
  | none => ⟨0, rule, sides.left, sides.right, direction, .unmatched, none, none⟩

def of (target : Sides) (p : PreparedRule) : Check :=
  ⟨p.index, [inDirection target p.rule .leftToRight p.forward,
    inDirection target p.rule .rightToLeft p.reverse]⟩

theorem inDirection_isMatch (target : Sides) (rule : Rule) (direction : Direction)
    (forms : NormalizedPair) :
    (inDirection target rule direction forms).isMatch =
      (infer? target ⟨forms.left.integer, forms.right.integer⟩).isSome := by
  simp only [inDirection]
  split <;> simp_all [ProofStep.isMatch]

end Check
end OperatorCalculus
