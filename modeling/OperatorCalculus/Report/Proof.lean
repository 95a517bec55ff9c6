import OperatorCalculus.Decimal.OnePlace
import OperatorCalculus.Report.Normalization
import OperatorCalculus.Report.Transcript
import OperatorCalculus.Text.Quoted

namespace OperatorCalculus

inductive ReportFault where
  | undescribedLaw
deriving DecidableEq, Repr

namespace Report

def orNone (t : Option Text) : Text := t.getD "None".toList

def stepLine (s : StepNote) : Text :=
  "Step ".toList ++ Text.ofInt s.number ++ " [".toList ++ s.arrow ++ "] ".toList ++
    s.rule.name ++ ": ".toList ++ s.left ++ " <=> ".toList ++ s.right ++
  (if s.isMatch then "  MATCH (".toList ++ orNone s.law ++ [')'] else [])

def contextLine (before : Text) (after : Option Text) : Text :=
  "  context: M = ".toList ++ Text.quoted before ++ "  N = ".toList ++
    orNone (after.map Text.quoted)

def matchLines (s : StepNote) : Except ReportFault (List Text) :=
  match s.law.bind Law.ofName? with
  | none => .error .undescribedLaw
  | some law => .ok (
    ["  rule:    ".toList ++ s.rule.id ++ " (".toList ++ s.rule.type ++ ", ".toList ++
        s.rule.category ++ [')'],
      "  source:  ".toList ++ s.rule.left ++ " <=> ".toList ++ s.rule.right,
      "  by:      ".toList ++ law.description] ++
    (match s.position with
      | none => []
      | some p =>
        ["  where:   ".toList ++ p.description ++ " [".toList ++ p.side ++ [']']]) ++
    (match s.context? with
      | none => []
      | some (before, after) => [contextLine before after]))

def verdictLine (status : Text) (verdict : Option Bool) : Text :=
  match verdict with
  | some true => "  TRUE: a matching rule was found.".toList
  | some false => "  FALSE: no rule in the store matches.".toList
  | none =>
    if status == Status.loading.name then
      "  Rule store still loading; no search was run.".toList
    else "  Cancelled: no verdict.".toList

def searchHeader (milliseconds : Float) (status : Text) (steps : Nat) : Text :=
  "PROOF SEARCH (".toList ++ status ++ ", ".toList ++ Text.ofNat steps ++
    " steps, ".toList ++ Decimal.onePlace milliseconds ++ " ms)".toList

def proof (allSteps : Bool) (milliseconds : Float) (t : Transcript) :
    Except ReportFault (List Text) := do
  let steps := if allSteps then t.steps else t.steps.filter StepNote.isMatch
  let found ← match t.matchedStep? with
    | none => .ok []
    | some s => matchLines s
  return [[], ruler, searchHeader milliseconds t.status t.steps.length, ruler] ++
    steps.map (fun s => ' ' :: ' ' :: stepLine s) ++ found ++
    [ruler, verdictLine t.status t.verdict]

def batchLine (b : BatchRecord) : Text :=
  "  Batch ".toList ++ Text.ofNat b.number ++ ": rules ".toList ++ Text.ofNat b.first ++
    '-' :: Text.ofNat b.last ++ ", ".toList ++ Text.ofNat b.steps ++ " steps -> ".toList ++
    b.matched.getD "(no match)".toList

def history (s : Search) : List Text :=
  [[], ruler, "Search history:".toList, ruler] ++ s.history.map batchLine ++
  (if s.reason.text.isEmpty then [] else ["  Halted: ".toList ++ s.reason.text])

end Report
end OperatorCalculus
