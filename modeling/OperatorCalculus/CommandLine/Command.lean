import OperatorCalculus.CommandLine.Options
import OperatorCalculus.Expression.Catalog
import OperatorCalculus.Latex.Output
import OperatorCalculus.Rule.Listing

namespace OperatorCalculus

inductive Command where
  | normalize (expression : Text) (right : Option Text)
  | prove (start : Text) (goal : Option Text) (batchSize yieldEvery : Option Int)
    (allSteps : Bool)
  | rules (query type category : Option Text)
  | extract (directory : Text) (output : Option Text) (format : Option OutputFormat)

-- A file name that is empty or has no text counts as none.
structure Invocation where
  rulesFile : Option Text
  theoremsFile : Option Text
  quiet : Bool
  command : Command

namespace Command

def anyText (_ : Text) : Bool := true

def isInteger (t : Text) : Bool := (Text.integer? t).isSome

def oneOf (choices : List Text) (t : Text) : Bool := choices.contains t

def helpNames : List OptionName := [⟨"-h".toList, .help⟩, ⟨"--help".toList, .help⟩]

def option (name : String) (action : Text → OptionAction) : OptionName :=
  ⟨"--".toList ++ name.toList, action name.toList⟩

def value (valid : Text → Bool) (key : Text) : OptionAction := .value key valid

def mainGrammar : Grammar :=
  ⟨helpNames ++ [option "rules" (value anyText), option "theorems" (value anyText),
      option "quiet" .flag],
    [.rest]⟩

def normalizeGrammar : Grammar := ⟨helpNames, [.one, .optional]⟩

def proveGrammar : Grammar :=
  ⟨helpNames ++ [option "batch-size" (value isInteger), option "yield-every" (value isInteger),
      option "all-steps" .flag],
    [.one, .one]⟩

def categoryNames : List Text := Catalog.categories.map (·.1)

def rulesGrammar : Grammar :=
  ⟨helpNames ++ [option "query" (value anyText), option "type" (value (oneOf Rule.types)),
      option "category" (value (oneOf categoryNames))],
    []⟩

def extractGrammar : Grammar :=
  ⟨helpNames ++ [option "format" (value (oneOf (OutputFormat.all.map OutputFormat.name)))],
    [.one, .one]⟩

-- The fallback is for an option that is not there at all.
def settingOr {α : Type} (key : String) (fallback : Option α) (read : Text → Option α)
    (p : Parsed) : Option α :=
  match Options.setting? key.toList p with
  | none => fallback
  | some given => given.bind read

def integerSetting (key : String) (fallback : Int) (p : Parsed) : Option Int :=
  settingOr key (some fallback) Text.integer? p

def hasSetting (key : String) (p : Parsed) : Bool := (Options.setting? key.toList p).isSome

structure Reading where
  name : Text
  grammar : Grammar
  build : Parsed → Option Command

def readings : List Reading := [
  ⟨"normalize".toList, normalizeGrammar, fun p =>
    match p.positionals with
    | [some e, right] => some (.normalize e right)
    | _ => none⟩,
  ⟨"prove".toList, proveGrammar, fun p =>
    match p.positionals with
    | [some start, goal] =>
      some (.prove start goal (integerSetting "batch-size" 10 p) (integerSetting "yield-every" 5 p)
        (hasSetting "all-steps" p))
    | _ => none⟩,
  ⟨"rules".toList, rulesGrammar, fun p =>
    some (.rules (settingOr "query" (some []) some p) (settingOr "type" none some p)
      (settingOr "category" none some p))⟩,
  ⟨"extract".toList, extractGrammar, fun p =>
    match p.positionals with
    | [some directory, output] =>
      some (.extract directory output (settingOr "format" (some .json) OutputFormat.ofName? p))
    | _ => none⟩]

def ofArguments (args : List Text) : Except Stop (Command × Bool) :=
  match args with
  | [] => .error .misuse
  | name :: rest =>
    match readings.find? fun r => r.name == name with
    | none => .error .misuse
    | some reading =>
      match Options.parse reading.grammar rest with
      | .error stop => .error stop
      | .ok p =>
        match reading.build p with
        | some c => .ok (c, p.unknown)
        | none => .error .misuse

end Command

namespace Invocation

def fileSetting (key : String) (p : Parsed) : Option Text :=
  Filter.demands (Command.settingOr key none some p)

-- Unknown options are refused only when everything else could be read.
def ofArguments (args : List Text) : Except Stop Invocation := do
  let p ← Options.parse Command.mainGrammar args
  let (command, unknown) ← Command.ofArguments (p.rest.getD [])
  if p.unknown || unknown then throw .misuse
  else return ⟨fileSetting "rules" p, fileSetting "theorems" p,
    Command.hasSetting "quiet" p, command⟩

end Invocation
end OperatorCalculus
