import OperatorCalculus.Json.Value

namespace OperatorCalculus

structure Rule where
  id : Text
  name : Text
  type : Text
  category : Text
  description : Text
  left : Text
  right : Text
  sectionTitle : Option Text
  subsectionTitle : Option Text
deriving DecidableEq, Repr, Inhabited

namespace Rule

def axiomType : Text := "axiom".toList
def definitionType : Text := "definition".toList
def theoremType : Text := "theorem".toList

def types : List Text := [axiomType, definitionType, theoremType]

def describe (r : Rule) : Text :=
  "Rule(".toList ++ r.id ++ ": ".toList ++ r.left ++ " <=> ".toList ++ r.right ++ [')']

end Rule
end OperatorCalculus
