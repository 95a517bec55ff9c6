import OperatorCalculus.Inference.InContext
import OperatorCalculus.Inference.WholeSide

namespace OperatorCalculus

inductive Law where
  | exact
  | commutativity
  | transitivity
  | substitution
deriving DecidableEq, Repr

namespace Law

def name : Law → Text
  | .exact => "Exact Match".toList
  | .commutativity => "Equivalent Commutativity".toList
  | .transitivity => "Equivalent Transitivity".toList
  | .substitution => "Equivalent Substitution".toList

def listed : List Law := [.exact, .commutativity, .transitivity, .substitution]

def description : Law → Text
  | .exact => "Target and rule are identical".toList
  | .commutativity => "A <=> B implies B <=> A".toList
  | .transitivity => "A <=> B and B <=> C implies A <=> C".toList
  | .substitution => "A <=> B allows replacing A with B in any context M.A.N -> M.B.N".toList

def ofName? (name : Text) : Option Law := listed.find? fun l => l.name == name

def check : Law → Sides → Sides → Option Position
  | .exact => WholeSide.exact
  | .commutativity => WholeSide.commutativity
  | .transitivity => WholeSide.transitivity
  | .substitution => InContext.substitution

end Law

structure Finding where
  law : Law
  position : Position
deriving DecidableEq, Repr

def infer? (target rule : Sides) : Option Finding :=
  Law.listed.findSome? fun law => (law.check target rule).map (Finding.mk law)

theorem infer?_isSome_iff (target rule : Sides) :
    (infer? target rule).isSome = true ↔
      ∃ law ∈ Law.listed, (law.check target rule).isSome = true := by
  simp [infer?, List.isSome_findSome?]

end OperatorCalculus
