import OperatorCalculus.Inference.Position

namespace OperatorCalculus

namespace InContext

-- A list of nothing but commas and blanks occurs everywhere and is never replaced.
def isBlankList (side : Text) : Bool :=
  (Text.trim (side.filter (· != ','))).isEmpty

structure Hit where
  offset : Nat
  before : Text
  after : Text
deriving DecidableEq, Repr

def cut (container found : Text) (offset : Nat) : Hit :=
  ⟨offset, container.take offset, container.drop (offset + found.length)⟩

def Hit.filled (h : Hit) (t : Text) : Text := h.before ++ t ++ h.after

def replacing (container found replacement expected : Text) (offset : Nat) : Option Hit :=
  let hit := cut container found offset
  if hit.filled replacement == expected then some hit else none

def replace? (container found replacement expected : Text) : Option Hit :=
  if isBlankList found then none
  else (Text.occurrences found container).findSome? (replacing container found replacement expected)

def positioned (side : Side) (description : String) (hit : Hit) : Position :=
  ⟨side, description.toList, some hit.offset, some hit.before, some hit.after⟩

def substitution (target rule : Sides) : Option Position :=
  match replace? target.left rule.left rule.right target.right with
  | some hit => some (positioned .left "rule left found in target left" hit)
  | none =>
    match replace? target.left rule.right rule.left target.right with
    | some hit => some (positioned .left "rule right found in target left" hit)
    | none =>
      match replace? target.right rule.left rule.right target.left with
      | some hit => some (positioned .right "rule left found in target right" hit)
      | none =>
        match replace? target.right rule.right rule.left target.left with
        | some hit => some (positioned .right "rule right found in target right" hit)
        | none => none

end InContext
end OperatorCalculus
