import OperatorCalculus.Text.Basic

namespace OperatorCalculus

inductive Side where
  | left
  | right
  | both
deriving DecidableEq, Repr

def Side.name : Side → Text
  | .left => "left".toList
  | .right => "right".toList
  | .both => "both".toList

structure Position where
  side : Side
  description : Text
  offset : Option Nat
  before : Option Text
  after : Option Text
deriving DecidableEq, Repr

def Position.whole (side : Side) (description : String) : Position :=
  ⟨side, description.toList, none, none, none⟩

structure Sides where
  left : Text
  right : Text
deriving DecidableEq, Repr

def Sides.reverse (s : Sides) : Sides := ⟨s.right, s.left⟩

end OperatorCalculus
