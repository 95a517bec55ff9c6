import OperatorCalculus.Text.Basic

-- A rule line is a display block on one line with the equivalence sign between its
-- sides. The sides are lists wrapped in commas; the commas and blanks at the edges are
-- taken off here and put back when the rule is filed.
namespace OperatorCalculus

namespace RuleLine

def openMark : Text := "\\[".toList
def closeMark : Text := "\\]".toList
def equivalence : Text := "\\Rq".toList
def repetition : Text := "\\sim".toList

def dropFrontComma : Text → Text
  | ',' :: rest => Text.trimLeft rest
  | t => t

-- A comma at the end with the blanks behind it; without a comma the blanks stay.
def dropBackComma (t : Text) : Text :=
  match t.reverse.dropWhile Text.isBlank with
  | ',' :: rest => rest.reverse
  | _ => t

def stripEdges (t : Text) : Text := dropBackComma (dropFrontComma t)

def isBackslash (c : Char) : Bool := c == '\\'

def dropBackslashes (t : Text) : Text := (t.reverse.dropWhile isBackslash).reverse

def signTail? (t : Text) : Option (Bool × Text) :=
  let u := Text.trimLeft t
  if repetition.isPrefixOf u then
    match Text.trimLeft (u.drop repetition.length) with
    | ',' :: rest => some (true, rest)
    | _ => none
  else
    match u with
    | ',' :: rest => some (false, rest)
    | _ => none

def signHere? (t : Text) : Option (Bool × Text) :=
  if equivalence.isPrefixOf t then signTail? (t.drop equivalence.length) else none

-- What may stand before the sign, in the order in which it is tried over the whole
-- line: a comma, blanks, nothing.
inductive Lead where
  | comma
  | blank
  | bare
deriving DecidableEq, Repr

def Lead.pass : Lead → Text → Option Text
  | .comma, ',' :: rest => some (Text.trimLeft rest)
  | .comma, _ => none
  | .blank, c :: rest => if Text.isBlank c then some (Text.trimLeft rest) else none
  | .blank, [] => none
  | .bare, t => some t

def leads : List Lead := [.comma, .blank, .bare]

structure Parted where
  before : Text
  after : Text
  repeats : Bool
deriving DecidableEq, Repr

def partHere? (lead : Lead) (t : Text) : Option Parted :=
  match lead.pass t with
  | none => none
  | some rest => (signHere? rest).map fun found => ⟨[], found.2, found.1⟩

def part? (lead : Lead) : Text → Option Parted
  | [] => none
  | c :: rest =>
    match partHere? lead (c :: rest) with
    | some p => some p
    | none => (part? lead rest).map fun p => { p with before := c :: p.before }

def content? (line : Text) : Option Text :=
  if Text.contains equivalence line then
    match Text.find? openMark line, Text.findLast? closeMark line with
    | some start, some stop =>
      if stop ≤ start then none else some ((line.take stop).drop (start + openMark.length))
    | _, _ => none
  else none

structure Sides where
  left : Text
  right : Text
  repeats : Bool
deriving DecidableEq, Repr

def tidyLeft (t : Text) : Text := Text.trim (stripEdges (dropFrontComma (Text.trim t)))

def tidyRight (t : Text) : Text := Text.trim (stripEdges (dropBackComma (Text.trim t)))

def split? (line : Text) : Option Sides :=
  match content? line with
  | none => none
  | some content =>
    (leads.findSome? fun lead => part? lead content).map fun p =>
      ⟨tidyLeft p.before, tidyRight p.after, p.repeats⟩

def wrap (side : Text) : Text := if side.isEmpty then [','] else ',' :: side ++ [',']

def clean (side : Text) : Text := Text.trim (dropBackslashes (stripEdges side))

end RuleLine
end OperatorCalculus
