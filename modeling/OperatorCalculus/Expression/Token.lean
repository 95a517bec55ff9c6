import OperatorCalculus.Text.Quoted

namespace OperatorCalculus

structure Span (κ : Type) where
  value : Text
  index : Nat
  kind : κ
deriving DecidableEq, Repr

namespace Span

def stop {κ : Type} (s : Span κ) : Nat := s.index + s.value.length

-- Half-open intervals: spans that only touch do not overlap.
def overlaps {κ : Type} (a b : Span κ) : Bool := a.index < b.stop && b.index < a.stop

theorem overlaps_comm {κ : Type} (a b : Span κ) : a.overlaps b = b.overlaps a := by
  simp [overlaps, Bool.and_comm]

theorem overlaps_self_iff {κ : Type} (a : Span κ) : a.overlaps a = true ↔ a.value ≠ [] := by
  cases h : a.value <;> simp [overlaps, stop, h]

def StandsIn {κ : Type} (s : Span κ) (e : Text) : Prop :=
  (e.drop s.index).take s.value.length = s.value ∧ s.stop ≤ e.length

end Span

inductive Kind where
  | variable
  | node
  | function
  | literal
  | operator
  | branch
  | comma
  | semicolon
  | lbrace
  | rbrace
  | lparen
  | rparen
  | text
deriving DecidableEq, Repr

namespace Kind

def name : Kind → Text
  | .variable => "variable".toList
  | .node => "node".toList
  | .function => "function".toList
  | .literal => "literal".toList
  | .operator => "operator".toList
  | .branch => "branch".toList
  | .comma => "comma".toList
  | .semicolon => "semicolon".toList
  | .lbrace => "lbrace".toList
  | .rbrace => "rbrace".toList
  | .lparen => "lparen".toList
  | .rparen => "rparen".toList
  | .text => "text".toList

def operandKinds : List Kind := [.variable, .node, .function, .literal]

def isOperand (k : Kind) : Bool := operandKinds.contains k

end Kind

abbrev Token := Span Kind

def Token.describe (t : Token) : Text :=
  "Token(".toList ++ t.kind.name ++ ':' :: Text.quoted t.value ++ '@' :: Text.ofNat t.index ++ [')']

end OperatorCalculus
