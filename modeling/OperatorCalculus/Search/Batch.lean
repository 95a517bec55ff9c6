import OperatorCalculus.Search.State
import OperatorCalculus.Slice

-- One batch: the next rules are checked in both directions and the steps up to the
-- first match join the state together. A batch that is cancelled or whose checks fail
-- leaves nothing behind.
namespace OperatorCalculus

-- What comes back when the checks of a batch are fanned out: the checks in any order,
-- or a failure, and whether the token was cancelled in the meantime.
structure Reply where
  cancels : Bool
  checks : Except Text (List Check)

abbrev FanOut := Nat → List Check → Reply

def FanOut.inTurn : FanOut := fun _ checks => ⟨false, .ok checks⟩

-- The token is asked only when the search watches it. Once so many batches are
-- complete as cancelAt says, whoever follows the progress cancels the token.
structure SearchOptions where
  batchSize : Int
  verbose : Bool
  watched : Bool
  cancelAt : Option Nat
  fanOut : FanOut

def SearchOptions.standard : SearchOptions := ⟨10, false, false, none, .inTurn⟩

structure Session where
  search : Search
  cancelled : Bool
deriving DecidableEq, Repr

inductive SearchEvent where
  | line (text : Text)
  | progress (search : Search)
deriving DecidableEq, Repr

structure Turn where
  session : Session
  events : List SearchEvent
  failure : Option Text
deriving DecidableEq, Repr

namespace Turn

def lines (t : Turn) : List Text :=
  t.events.filterMap fun
    | .line text => some text
    | .progress _ => none

def progress (t : Turn) : List Search :=
  t.events.filterMap fun
    | .line _ => none
    | .progress s => some s

end Turn

namespace Session

def halt (s : Session) (status : Status) (verdict : Option Bool) (reason : HaltReason) : Session :=
  { s with search := s.search.halt status verdict reason }

def said (o : SearchOptions) (lines : List Text) : List SearchEvent :=
  if o.verbose then lines.map .line else []

def throughMatch : List ProofStep → List ProofStep
  | [] => []
  | s :: rest => if s.isMatch then [s] else s :: throughMatch rest

def numberedFrom (n : Nat) : List ProofStep → List ProofStep
  | [] => []
  | s :: rest => { s with number := n } :: numberedFrom (n + 1) rest

def inRuleOrder (checks : List Check) : List Check :=
  checks.mergeSort fun a b => a.index ≤ b.index

def batchLine (s : Search) (size rules : Nat) : Text :=
  "--- Batch ".toList ++ Text.ofNat (s.batches + 1) ++ ": rules ".toList ++
    Text.ofNat (s.cursor + 1) ++ '-' :: Text.ofNat (s.cursor + size) ++ " of ".toList ++
    Text.ofNat rules ++ " ---".toList

def matchLine (step : ProofStep) : Text :=
  "  [match] ".toList ++ step.name ++ " via ".toList ++
    (match step.law with
      | some law => law.name
      | none => [])

def exhaustedLine (steps : Nat) : Text :=
  "  [exhausted] ".toList ++ Text.ofNat steps ++ " steps, no match".toList

def remainingLine (steps rules : Nat) : Text :=
  "  Steps: ".toList ++ Text.ofNat steps ++ " | Remaining rules: ".toList ++ Text.ofNat rules

def cancelledLine (moment : String) (s : Search) : Text :=
  "  [cancelled] ".toList ++ moment.toList ++ " batch ".toList ++ Text.ofNat (s.batches + 1)

def joined (s : Search) (size : Nat) (steps : List ProofStep) : Search :=
  { s with
    steps := s.steps ++ steps
    batches := s.batches + 1
    cursor := s.cursor + size
    history := s.history ++ [⟨s.batches + 1, s.cursor + 1, s.cursor + size, steps.length,
      (steps.find? ProofStep.isMatch).map ProofStep.name⟩] }

def settle (o : SearchOptions) (rules size : Nat) (checks : List Check) (s : Session) : Turn :=
  let steps := numberedFrom (s.search.steps.length + 1)
    (throughMatch ((inRuleOrder checks).flatMap Check.steps))
  let next : Session := { s with search := joined s.search size steps }
  let head : List Text := [[], batchLine s.search size rules]
  match steps.find? ProofStep.isMatch with
  | some step =>
    ⟨next.halt .matched (some true) (.matchedRule step.rule.id),
      said o (head ++ [matchLine step]), none⟩
  | none =>
    if next.search.complete rules then
      ⟨next.halt .exhausted (some false) .noRuleMatched,
        said o (head ++ [exhaustedLine next.search.steps.length]), none⟩
    else
      ⟨next, said o (head ++ [remainingLine next.search.steps.length
        (next.search.remaining rules)]), none⟩

def chosen (o : SearchOptions) (rules : List PreparedRule) (s : Search) : List PreparedRule :=
  Slice.upTo s.cursor (s.cursor + o.batchSize) rules

def batch (o : SearchOptions) (rules : List PreparedRule) (s : Session) : Turn :=
  if s.search.halted then ⟨s, [], none⟩
  else if o.watched && s.cancelled then
    ⟨s.halt .cancelled none .cancelled, said o [cancelledLine "before" s.search], none⟩
  else if s.search.complete rules.length then
    ⟨s.halt .exhausted (some false) .noRuleMatched, [], none⟩
  else
    let rulesNow := chosen o rules s.search
    let reply := o.fanOut (s.search.batches + 1) (rulesNow.map (Check.of s.search.target))
    let after : Session := { s with cancelled := s.cancelled || reply.cancels }
    match reply.checks with
    | .error failure => ⟨after, [], some failure⟩
    | .ok checks =>
      if o.watched && after.cancelled then
        ⟨after.halt .cancelled none .cancelled, said o [cancelledLine "during" s.search], none⟩
      else settle o rules.length rulesNow.length checks after

theorem batch_of_halted (o : SearchOptions) (rules : List PreparedRule) {s : Session}
    (h : s.search.halted = true) : batch o rules s = ⟨s, [], none⟩ := by
  simp [batch, h]

end Session
end OperatorCalculus
