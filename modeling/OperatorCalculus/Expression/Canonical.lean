import OperatorCalculus.Expression.Operand

-- Operands of a rule stand for anything. Two expressions are compared by their
-- canonical forms, in which each operand is replaced by its number in the order of
-- first appearance: which names were used is erased, which of them are equal stays.
namespace OperatorCalculus

namespace Expression

def replaceSpan {κ : Type} (s : Span κ) (image e : Text) : Text :=
  e.take s.index ++ image ++ e.drop s.stop

-- Spans are given left to right and replaced from the right, so that the positions
-- of those still to come stay valid.
def replaceAll {κ : Type} (image : Text → Text) (spans : List (Span κ)) (e : Text) : Text :=
  spans.foldr (fun s out => replaceSpan s (image s.value) out) e

def skeleton (placeholder : Text) (e : Text) : Text :=
  replaceAll (fun _ => placeholder) (Operand.extract e) e

theorem replaceAll_cons {κ : Type} (image : Text → Text) (s : Span κ) (rest : List (Span κ))
    (e : Text) :
    replaceAll image (s :: rest) e = replaceSpan s (image s.value) (replaceAll image rest e) := rfl

end Expression

-- The distinct operand values met so far, in order of first appearance. The number of
-- a value is its place in this list, counted from one.
abbrev Numbering := List Text

namespace Numbering

def number (names : Numbering) (value : Text) : Nat := names.idxOf value + 1

def enter (names : Numbering) (value : Text) : Numbering :=
  if names.elem value then names else names ++ [value]

def enterAll (names : Numbering) (values : List Text) : Numbering := values.foldl enter names

theorem enter_of_mem {names : Numbering} {value : Text} (h : value ∈ names) :
    enter names value = names := by simp [enter, h]

theorem mem_enter {names : Numbering} {value x : Text} :
    x ∈ enter names value ↔ x ∈ names ∨ x = value := by
  simp only [enter]
  split
  · next h =>
    have : value ∈ names := by simpa using h
    constructor
    · exact .inl
    · rintro (h | rfl)
      · exact h
      · exact this
  · simp

end Numbering

structure NumberedOperand where
  value : Text
  number : Nat
  position : Nat
  kind : Kind
deriving DecidableEq, Repr

namespace NumberedOperand

def tagged (value : Text) (number : Nat) : Text := value ++ '_' :: Text.ofNat number

def normalized (o : NumberedOperand) : Text := tagged o.value o.number

def describe (o : NumberedOperand) : Text :=
  "NormalizedOperand(".toList ++ Text.quoted o.value ++ " -> ".toList ++
    Text.ofNat o.number ++ [')']

end NumberedOperand

def instantiate (names : Numbering) (position : Nat) : List Token → List NumberedOperand × Numbering
  | [] => ([], names)
  | t :: rest =>
    let names' := names.enter t.value
    let (operands, final) := instantiate names' (position + 1) rest
    (⟨t.value, names'.number t.value, position, t.kind⟩ :: operands, final)

structure Normalized where
  expression : Text
  normalized : Text
  integer : Text
  operands : List NumberedOperand
  names : Numbering
deriving DecidableEq, Repr

namespace Normalized

-- A lone comma is the empty list, which is an expression; only blanks are empty.
def isEmptyForm (integer : Text) : Bool := (Text.trim integer).isEmpty

def isEmpty (n : Normalized) : Bool := isEmptyForm n.integer

-- The names decide the forms; they may come from more than this expression.
def ofParts (e : Text) (tokens : List Token) (operands : List NumberedOperand)
    (names : Numbering) : Normalized where
  expression := e
  normalized :=
    Expression.replaceAll (fun v => NumberedOperand.tagged v (names.number v)) tokens e
  integer := Expression.replaceAll (fun v => Text.ofNat (names.number v)) tokens e
  operands := operands
  names := names

def mapping (n : Normalized) : List (Text × Text) :=
  n.names.map fun v => (v, NumberedOperand.tagged v (n.names.number v))

end Normalized

structure NormalizedPair where
  left : Normalized
  right : Normalized
deriving DecidableEq, Repr

namespace NormalizedPair

def operands (p : NormalizedPair) : List NumberedOperand := p.left.operands ++ p.right.operands

def integers (p : NormalizedPair) : Text × Text := (p.left.integer, p.right.integer)

end NormalizedPair

namespace Expression

def normalize (e : Text) : Normalized :=
  let tokens := Operand.extract e
  let (operands, names) := instantiate [] 1 tokens
  .ofParts e tokens operands names

-- The two sides share one numbering and the left side is read first, so an operand
-- that stands on both sides has one number.
def normalizePair (left right : Text) : NormalizedPair :=
  let leftTokens := Operand.extract left
  let rightTokens := Operand.extract right
  let (leftOperands, leftNames) := instantiate [] 1 leftTokens
  let (rightOperands, names) := instantiate leftNames (leftTokens.length + 1) rightTokens
  ⟨.ofParts left leftTokens leftOperands names, .ofParts right rightTokens rightOperands names⟩

def canonicalPair (left right : Text) : Text × Text := (normalizePair left right).integers

end Expression
end OperatorCalculus
