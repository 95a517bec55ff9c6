import OperatorCalculus.Latex.Module
import OperatorCalculus.Rule.File
import OperatorCalculus.Text.Quoted

namespace OperatorCalculus

inductive OutputFormat where
  | json
  | dataModule
deriving DecidableEq, Repr

namespace OutputFormat

def name : OutputFormat → Text
  | .json => "json".toList
  | .dataModule => "ts".toList

def all : List OutputFormat := [.json, .dataModule]

def ofName? (name : Text) : Option OutputFormat := all.find? fun f => f.name == name

def unknownShown (shown : Text) : Text := "unknown output format ".toList ++ shown

def unknownMessage (name : Text) : Text := unknownShown (Text.quoted name)

def render (rules : List Rule) : OutputFormat → Text
  | .json => RuleFile.writeRules rules
  | .dataModule => DataModule.render rules

end OutputFormat
end OperatorCalculus
