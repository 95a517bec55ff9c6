import OperatorCalculus.Expression.Catalog
import OperatorCalculus.Expression.Operand

namespace OperatorCalculus

namespace Lexeme

def isPlain (c : Char) : Bool :=
  !Text.isBlank c && c != '\\' && (Catalog.punctuationKind? c).isNone

def longest : Matcher := fun _ t =>
  match t with
  | [] => none
  | c :: rest =>
    if Text.isBlank c then some ((rest.takeWhile Text.isBlank).length + 1)
    else if c == '\\' then some ((rest.takeWhile Text.isLetter).length + 1)
    else if (Catalog.punctuationKind? c).isSome then some 1
    else some ((rest.takeWhile isPlain).length + 1)

def kindOf : Text → Kind
  | [] => .text
  | [c] => (Catalog.punctuationKind? c).getD .text
  | c :: d :: rest =>
    if c != '\\' then .text
    else if Catalog.operatorClass? (c :: d :: rest) == some .branch then .branch
    else .operator

def ofGap (offset : Nat) (gap : Text) : List Token :=
  ((Scan.all longest gap).filter fun hit => !Text.allBlank hit.2).map fun hit =>
    ⟨hit.2, offset + hit.1, kindOf hit.2⟩

end Lexeme

namespace Expression

def weave (e : Text) (cursor : Nat) : List Token → List Token
  | [] => Lexeme.ofGap cursor (e.drop cursor)
  | o :: rest =>
    Lexeme.ofGap cursor ((e.drop cursor).take (o.index - cursor)) ++ o :: weave e o.stop rest

def tokens (e : Text) : List Token := weave e 0 (Operand.extract e)

end Expression
end OperatorCalculus
