import OperatorCalculus.CommandLine.Command
import OperatorCalculus.CommandLine.Job
import OperatorCalculus.Latex.Source
import OperatorCalculus.Report.Listing
import OperatorCalculus.Report.Proof
import OperatorCalculus.Rule.Shipped
import OperatorCalculus.Search.Drive

namespace OperatorCalculus

inductive Breakdown where
  | notListed
  | memberless
  | unnamed
  | listing (fault : ListingFault)
  | sideNotText
  | nestedTooDeeply
  | goalWithoutText
  | queryWithoutText
  | sizeWithoutNumber
  | yieldWithoutNumber
  | outputWithoutText
  | report (fault : ReportFault)

-- Searches are told over texts. What one shows of rules with a half that stands alone is
-- left untold.
inductive Failure where
  | file (path : Text) (fault : FileFault)
  | document (message : Text)
  | brokenOff (why : Breakdown)
  | untold

abbrev Task (α : Type) := ExceptT Failure Job α

namespace Task

def say (lines : List Text) : Task Unit := ExceptT.mk (.say lines (.done (.ok ())))

def fail {α : Type} (f : Failure) : Task α := ExceptT.mk (.done (.error f))

-- Lines are shown in turn until one can not be encoded.
def print : List Spelling → Task Unit
  | [] => pure ()
  | line :: rest =>
    match Spelling.text? line with
    | some t => do
      say [t]
      print rest
    | none => fail (.document (Spelling.encodingFault line))

def readText (path : Text) : Task Text := ExceptT.mk (.read path fun
  | .ok content => .done (.ok (Text.unifyLineEnds content))
  | .error fault => .done (.error (.file path fault)))

def listNames (directory : Text) : Task (List Text) :=
  ExceptT.mk (.list directory fun names => .done (.ok names))

def writeText (path content : Text) : Task Unit := ExceptT.mk (.write path content fun
  | none => .done (.ok ())
  | some fault => .done (.error (.file path fault)))

def ofListing {α : Type} : Except ListingFault α → Task α
  | .ok a => pure a
  | .error f => fail (.brokenOff (.listing f))

end Task

namespace RuleFileFault

def failure (document : Text) : RuleFileFault → Failure
  | .syntactic f => .document (f.message document)
  | .record .memberless => .brokenOff .memberless
  | .record .unnamed => .brokenOff .unnamed
  | .record f => .document f.message
  | .notListed => .brokenOff .notListed
  | .nestedTooDeeply => .brokenOff .nestedTooDeeply

end RuleFileFault

namespace Path

-- A path as it is shown once it has been taken apart: single slashes, no dots that mean
-- nothing, no slash at the end. Exactly two slashes at the front are kept.
def normalize (path : Text) : Text :=
  let front : Text :=
    match path with
    | '/' :: '/' :: '/' :: _ => ['/']
    | '/' :: '/' :: _ => ['/', '/']
    | '/' :: _ => ['/']
    | _ => []
  let body := Text.join ['/']
    ((Text.splitOn '/' path).filter fun part => !part.isEmpty && part != ['.'])
  if front.isEmpty && body.isEmpty then ['.'] else front ++ body

def inside (directory name : Text) : Text :=
  let d := normalize directory
  if d == ['.'] then name
  else if d.getLast? == some '/' then d ++ name
  else d ++ '/' :: name

end Path

namespace Extraction

def sourceEnding : Text := ".tex".toList

def sources (names : List Text) : List Text :=
  (names.filter fun n => sourceEnding.isSuffixOf n).mergeSort Text.le

def said (verbose : Bool) (lines : List Text) : Task Unit :=
  if verbose then Task.say lines else pure ()

def readAll (directory : Text) (verbose : Bool) : List Text → Task (List Rule)
  | [] => pure []
  | name :: rest => do
    said verbose ["Processing: ".toList ++ name]
    let document ← Task.readText (Path.inside directory name)
    let found := Source.rules document name
    said verbose ["  Extracted ".toList ++ Text.ofNat found.length ++ " rules".toList]
    let more ← readAll directory verbose rest
    return found ++ more

def ofDirectory (directory : Text) (verbose : Bool) : Task (List Rule) := do
  let names := sources (← Task.listNames (Path.normalize directory))
  said verbose ["Found ".toList ++ Text.ofNat names.length ++ " theorem files".toList]
  let rules ← readAll directory verbose names
  said verbose [[], "Total rules extracted: ".toList ++ Text.ofNat rules.length]
  return rules

def writeTo (output : Text) (format : OutputFormat) (verbose : Bool) (rules : List Rule) :
    Task Unit := do
  Task.writeText (Path.normalize output) (format.render rules)
  said verbose [[], "Output written to: ".toList ++ output]

end Extraction

namespace CommandLine

def loadRecords (limit : Nat) (path : Text) : Task (List Record) := do
  let document ← Task.readText path
  match RuleFile.read limit document with
  | .ok records => pure records
  | .error f => Task.fail (f.failure document)

-- The axioms first, then the theorems; nothing is used until both are read.
def loadStore (limit : Nat) (i : Invocation) : Task (List Record) := do
  let axioms ← match i.rulesFile with
    | some path => loadRecords limit path
    | none => pure (Rule.shipped.map Rule.toRecord)
  let theorems ← match i.theoremsFile with
    | some path => loadRecords limit path
    | none => pure []
  return axioms ++ theorems

def expressions (records : List Record) : Task (List Rule) :=
  if records.all Record.hasSides then
    match records.mapM Record.shown? with
    | some rules => pure rules
    | none => Task.fail .untold
  else Task.fail (.brokenOff .sideNotText)

def targetLine (rules : Nat) (start goal : Text) : Text :=
  "Rules: ".toList ++ Text.ofNat rules ++ " | Target: ".toList ++ start ++ " <=> ".toList ++ goal

def noTime : Float := 0.0

-- A missing number is missed only where it is needed: the batch size before the first
-- batch, the yield count when that batch has not ended the search.
def missedNumber? (batchSize yieldEvery : Option Int) (options : SearchOptions)
    (rules : List PreparedRule) (search : Search) : Option Breakdown :=
  if search.halted || search.complete rules.length then none
  else match batchSize, yieldEvery with
    | none, _ => some .sizeWithoutNumber
    | some _, none =>
      if (Session.batch options rules ⟨search, false⟩).session.search.halted then none
      else some .yieldWithoutNumber
    | some _, some _ => none

-- A goal without text is shown as an empty list. It is not looked at when the start is
-- blank, and breaks the run off otherwise.
def prove (limit : Nat) (i : Invocation) (start : Text) (goal : Option Text)
    (batchSize yieldEvery : Option Int) (allSteps : Bool) : Task Nat := do
  let verbose := !i.quiet
  let records ← loadStore limit i
  if verbose then
    Task.say [targetLine records.length start (goal.getD ['[', ']'])]
  if goal.isNone && !(Text.trim start).isEmpty then Task.fail (.brokenOff .goalWithoutText)
  let rules ← expressions records
  let options : SearchOptions :=
    ⟨batchSize.getD SearchOptions.standard.batchSize, verbose, true, none, .inTurn⟩
  let prepared := PreparedRule.all rules
  let target := goal.getD []
  if let some why := missedNumber? batchSize yieldEvery options prepared (.begin start target) then
    Task.fail (.brokenOff why)
  let turn := Session.prove options (yieldEvery.getD Session.standardYield) prepared false start
    target
  Task.say turn.lines
  let search := turn.session.search
  if verbose then Task.say (Report.history search)
  match Report.proof allSteps noTime search.result.transcript with
  | .ok report => Task.say report
  | .error f => Task.fail (.brokenOff (.report f))
  return if search.verdict == some true then 0 else 1

def noFormatMessage : Text := OutputFormat.unknownShown ['[', ']']

def command (limit : Nat) (i : Invocation) : Task Nat :=
  match i.command with
  | .normalize e none => do
    Task.say (Report.normalization "Expression".toList (Expression.normalize e))
    return 0
  | .normalize e (some right) => do
    Task.say (Report.pair (Expression.normalizePair e right))
    return 0
  | .prove start goal batchSize yieldEvery allSteps =>
    prove limit i start goal batchSize yieldEvery allSteps
  | .rules query type category => do
    let records ← loadStore limit i
    let some query := query | Task.fail (.brokenOff .queryWithoutText)
    let found ← Task.ofListing (RecordListing.search ⟨query, type, category⟩ records)
    let groups ← Task.ofListing (RecordListing.group found)
    Task.print (Report.records groups (RecordListing.counts found))
    return 0
  | .extract directory output format => do
    let rules ← Extraction.ofDirectory directory (!i.quiet)
    let some format := format | Task.fail (.document noFormatMessage)
    let some path := output | Task.fail (.brokenOff .outputWithoutText)
    Extraction.writeTo path format (!i.quiet) rules
    return 0

inductive Ending where
  | exit (code : Nat) (message : Option Text)
  | stopped (stop : Stop)
  | brokenOff (why : Breakdown)
  | untold

def refused (message : Text) : Ending := .exit 2 (some ("error: ".toList ++ message))

def Ending.of : Except Failure Nat → Ending
  | .ok code => .exit code none
  | .error (.file path fault) => refused (fault.message path)
  | .error (.document message) => refused message
  | .error (.brokenOff why) => .brokenOff why
  | .error .untold => .untold

-- The limit is that of the machine on lists and objects inside one another.
def run (limit : Nat) (args : List Text) : Job Ending :=
  match Invocation.ofArguments args with
  | .error stop => .done (.stopped stop)
  | .ok i => Job.bind (command limit i).run fun result => .done (.of result)

end CommandLine
end OperatorCalculus
