import OperatorCalculus.Expression.Cover
import OperatorCalculus.Expression.Scan

-- Operands are what the operators act upon: calls, subscripted variables, single
-- letters and integers. Every pattern proposes candidates on its own and the cover
-- decides between them. A call without its closing parenthesis proposes nothing, and
-- its contents fall to the other patterns; extraction itself has no failure.
namespace OperatorCalculus

-- What the arguments of a call must hold. No nesting is balanced: the arguments end
-- at the first closing parenthesis.
inductive ArgumentShape where
  | free
  | split
  | splitBeforeComma
deriving DecidableEq, Repr

namespace ArgumentShape

def admits : ArgumentShape → Text → Bool
  | .free, _ => true
  | .split, arguments => arguments.elem ';'
  | .splitBeforeComma, arguments => (arguments.takeWhile (· != ',')).elem ';'

end ArgumentShape

namespace Operand

def callNames : List (Text × ArgumentShape) := [
  (['R'], .free), (['R', 'c'], .free),
  (['R', 'c', 'p', 'o'], .split), (['R', 'c', 'p', 'm'], .split),
  (['I', 's', 'C', 'p', 'o'], .split), (['C', 'p', 'o'], .free),
  (['D', 'e', 'l'], .free), (['I', 'n', 's'], .splitBeforeComma), (['i', 'f'], .free)]

def callLength (name : Text) (shape : ArgumentShape) (t : Text) : Option Nat :=
  if (name ++ ['(']).isPrefixOf t then
    let body := t.drop (name.length + 1)
    let arguments := body.takeWhile (· != ')')
    if arguments.length < body.length && shape.admits arguments then
      some (name.length + arguments.length + 2)
    else none
  else none

def call : Matcher := fun _ t => callNames.findSome? fun n => callLength n.1 n.2 t

def isStem (c : Char) : Bool := Text.isLower c || Text.isDigit c

def subscripted : Matcher := fun before t =>
  match t with
  | [] => none
  | c :: rest =>
    if Scan.opensWord before && Text.isLower c then
      let stem := rest.takeWhile isStem
      match rest.dropWhile isStem with
      | '_' :: behind =>
        let digits := behind.takeWhile Text.isDigit
        if !digits.isEmpty && Scan.closesWord (behind.dropWhile Text.isDigit) then
          some (stem.length + digits.length + 2)
        else none
      | _ => none
    else none

def letter : Matcher := fun before t =>
  match t with
  | [] => none
  | c :: rest =>
    if Scan.opensWord before && Text.isLower c && Scan.closesWord rest then some 1 else none

def number : Matcher := fun before t =>
  let digits := t.takeWhile Text.isDigit
  if Scan.opensWord before && !digits.isEmpty && Scan.closesWord (t.dropWhile Text.isDigit) then
    some digits.length
  else none

def opensEscape : Text → Bool
  | '\\' :: 'O' :: c :: _ => Text.isLower c
  | '\\' :: 'B' :: c :: _ => Text.isLower c
  | _ => false

def holdsEscape : Text → Bool
  | [] => false
  | c :: rest => opensEscape (c :: rest) || holdsEscape rest

def charBefore? (e : Text) (index : Nat) : Option Char :=
  if index == 0 then none else e[index - 1]?

-- The window ends with the letter itself and reaches three characters back.
def belongsToEscape (e : Text) (index : Nat) : Bool :=
  charBefore? e index == some '\\' ||
    holdsEscape ((e.drop (index - 3)).take (index + 1 - (index - 3)))

def belongsToSubscript (e : Text) (index : Nat) : Bool := charBefore? e index == some '_'

def propose (priority : Int) (kind : Kind) (hits : List (Nat × Text)) : List (Candidate Kind) :=
  hits.map fun hit => ⟨priority, ⟨hit.2, hit.1, kind⟩⟩

def candidates (e : Text) : List (Candidate Kind) :=
  propose 0 .function (Scan.all call e) ++
  propose 1 .variable (Scan.all subscripted e) ++
  propose 2 .variable ((Scan.all letter e).filter fun hit => !belongsToEscape e hit.1) ++
  propose 3 .literal ((Scan.all number e).filter fun hit => !belongsToSubscript e hit.1)

def extract (e : Text) : List Token := Cover.ofCandidates (candidates e)

end Operand
end OperatorCalculus
