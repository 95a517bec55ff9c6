import OperatorCalculus.Search.Step

namespace OperatorCalculus

inductive Status where
  | idle
  | running
  | matched
  | exhausted
  | cancelled
  | loading
  | empty
deriving DecidableEq, Repr

namespace Status

def name : Status → Text
  | .idle => "idle".toList
  | .running => "running".toList
  | .matched => "matched".toList
  | .exhausted => "exhausted".toList
  | .cancelled => "cancelled".toList
  | .loading => "loading".toList
  | .empty => "empty".toList

def halts : Status → Bool
  | .idle | .running => false
  | _ => true

end Status

inductive HaltReason where
  | notHalted
  | emptyExpression
  | emptyCanonicalForm
  | cancelled
  | noRuleMatched
  | matchedRule (id : Text)
deriving DecidableEq, Repr

def HaltReason.text : HaltReason → Text
  | .notHalted => []
  | .emptyExpression => "empty expression".toList
  | .emptyCanonicalForm => "empty canonical form".toList
  | .cancelled => "cancelled".toList
  | .noRuleMatched => "no rule matched".toList
  | .matchedRule id => "matched ".toList ++ id

-- One completed batch. The rules are counted from one; an empty batch ends before it
-- begins.
structure BatchRecord where
  number : Nat
  first : Nat
  last : Nat
  steps : Nat
  matched : Option Text
deriving DecidableEq, Repr

structure Search where
  start : Text
  goal : Text
  target : Sides
  steps : List ProofStep
  cursor : Nat
  batches : Nat
  history : List BatchRecord
  status : Status
  verdict : Option Bool
  reason : HaltReason
deriving DecidableEq, Repr

namespace Search

def idle (start goal : Text) (target : Sides) : Search :=
  ⟨start, goal, target, [], 0, 0, [], .idle, none, .notHalted⟩

def halted (s : Search) : Bool := s.status.halts

def halt (s : Search) (status : Status) (verdict : Option Bool) (reason : HaltReason) : Search :=
  { s with status := status, verdict := verdict, reason := reason }

-- A target side without text is a negative answer, not a mistake.
def begin (start goal : Text) : Search :=
  let blank := idle start goal ⟨[], []⟩
  if (Text.trim start).isEmpty || (Text.trim goal).isEmpty then
    blank.halt .empty (some false) .emptyExpression
  else
    let pair := Expression.normalizePair start goal
    let aimed := { blank with target := ⟨pair.left.integer, pair.right.integer⟩ }
    if pair.left.isEmpty || pair.right.isEmpty then
      aimed.halt .empty (some false) .emptyCanonicalForm
    else { aimed with status := .running }

def complete (s : Search) (rules : Nat) : Bool := rules ≤ s.cursor

def remaining (s : Search) (rules : Nat) : Nat := rules - s.cursor

end Search

-- The outcome of a search. No verdict means that the run was cancelled or that the
-- rules were still being loaded; the status says which.
structure SearchResult where
  verdict : Option Bool
  steps : List ProofStep
  status : Status
deriving DecidableEq, Repr

namespace SearchResult

def matchedStep? (r : SearchResult) : Option ProofStep := r.steps.find? ProofStep.isMatch

def foundMatch (r : SearchResult) : Bool := r.verdict == some true && r.matchedStep?.isSome

end SearchResult

def Search.result (s : Search) : SearchResult := ⟨s.verdict, s.steps, s.status⟩

end OperatorCalculus
