import OperatorCalculus.Expression.Token

namespace OperatorCalculus

inductive OperatorClass where
  | binary
  | unary
  | nullary
  | relationship
  | negatedRelationship
  | branch
deriving DecidableEq, Repr

namespace OperatorClass

def name : OperatorClass → Text
  | .binary => "binary".toList
  | .unary => "unary".toList
  | .nullary => "nullary".toList
  | .relationship => "relationship".toList
  | .negatedRelationship => "negated relationship".toList
  | .branch => "branch".toList

end OperatorClass

namespace Catalog

def operators : List (Text × OperatorClass) := [
  ("\\Oa".toList, .binary), ("\\Ob".toList, .binary), ("\\Oc".toList, .binary),
  ("\\Od".toList, .binary), ("\\Oe".toList, .binary),
  ("\\Og".toList, .unary), ("\\Ot".toList, .unary), ("\\On".toList, .unary),
  ("\\Op".toList, .unary), ("\\Os".toList, .unary), ("\\Tc".toList, .unary),
  ("\\Tt".toList, .unary), ("\\Pu".toList, .unary), ("\\nPu".toList, .unary),
  ("\\Or".toList, .nullary),
  ("\\Pb".toList, .relationship), ("\\Pc".toList, .relationship),
  ("\\Pe".toList, .relationship), ("\\Pn".toList, .relationship),
  ("\\Pne".toList, .relationship), ("\\Pnl".toList, .relationship),
  ("\\Pnm".toList, .relationship), ("\\Pp".toList, .relationship),
  ("\\Ps".toList, .relationship),
  ("\\nPb".toList, .negatedRelationship), ("\\nPc".toList, .negatedRelationship),
  ("\\nPe".toList, .negatedRelationship), ("\\nPn".toList, .negatedRelationship),
  ("\\nPne".toList, .negatedRelationship), ("\\nPnl".toList, .negatedRelationship),
  ("\\nPnm".toList, .negatedRelationship), ("\\nPp".toList, .negatedRelationship),
  ("\\nPs".toList, .negatedRelationship),
  ("\\Bb".toList, .branch), ("\\Blb".toList, .branch), ("\\Br".toList, .branch),
  ("\\Bls".toList, .branch), ("\\Brs".toList, .branch)]

def operatorClass? (name : Text) : Option OperatorClass :=
  (operators.find? (·.1 == name)).map (·.2)

def punctuation : List (Char × Kind) := [
  (',', .comma), (';', .semicolon), ('\x7b', .lbrace), ('\x7d', .rbrace),
  ('(', .lparen), (')', .rparen)]

def punctuationKind? (c : Char) : Option Kind := (punctuation.find? (·.1 == c)).map (·.2)

def categories : List (Text × Text) := [
  ("operators".toList, "Rules governing operator behavior and swapping".toList),
  ("relationships".toList, "Node comparison and relationship rules".toList),
  ("propositions".toList, "Logical propositions and branch functions".toList),
  ("induction".toList, "Induction principles for proving properties".toList),
  ("arithmetic".toList, "Number operations and properties".toList),
  ("logic".toList, "Fundamental logical rules and equivalence".toList)]

end Catalog
end OperatorCalculus
