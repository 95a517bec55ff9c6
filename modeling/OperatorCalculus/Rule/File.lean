import OperatorCalculus.Json.Reader
import OperatorCalculus.Rule.Record

namespace OperatorCalculus

inductive RuleFileFault where
  | syntactic (fault : Json.Fault)
  | record (fault : RecordFault)
  | notListed
  | nestedTooDeeply

namespace RuleFile

-- An object lists its names and a text its characters; such entries are read as
-- records like any other and fail as such.
def entries? : Json → Option (List Json)
  | .arr items => some items
  | .obj members => some (members.map fun m => Json.ofSpelling m.1)
  | .str t => some (t.map fun c => .str [c])
  | .torn units => some (units.map fun u => Json.ofSpelling [u])
  | _ => none

def readRecords : List Json → Except RecordFault (List Record)
  | [] => .ok []
  | v :: rest =>
    match Record.ofJson v with
    | .error f => .error f
    | .ok r =>
      match readRecords rest with
      | .error f => .error f
      | .ok rs => .ok (r :: rs)

def read (limit : Nat) (document : Text) : Except RuleFileFault (List Record) :=
  match Json.read limit document with
  | .error f =>
    if f.cause == .nestedTooDeeply then .error .nestedTooDeeply else .error (.syntactic f)
  | .ok v =>
    match entries? v with
    | none => .error .notListed
    | some items =>
      match readRecords items with
      | .error f => .error (.record f)
      | .ok rs => .ok rs

def layout (records : List Json) : Text := Json.layout 0 (.arr records) ++ ['\n']

-- Records that hold a torn string cannot be written.
def write? (records : List Record) : Option Text :=
  let values := records.map Record.toJson
  if values.any Json.holdsTorn then none else some (layout values)

def writeRules (rules : List Rule) : Text := layout (rules.map Rule.toJson)

end RuleFile
end OperatorCalculus
