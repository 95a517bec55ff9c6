import OperatorCalculus.Expression.Canonical
import OperatorCalculus.Rule.Basic

-- A rule with its canonical forms, as written and reversed. The reversed forms are
-- numbered anew from the right side; they are not the forward forms exchanged.
namespace OperatorCalculus

structure PreparedRule where
  index : Nat
  rule : Rule
  forward : NormalizedPair
  reverse : NormalizedPair
deriving DecidableEq, Repr

namespace PreparedRule

def of (index : Nat) (rule : Rule) : PreparedRule :=
  ⟨index, rule, Expression.normalizePair rule.left rule.right,
    Expression.normalizePair rule.right rule.left⟩

def all (rules : List Rule) : List PreparedRule := rules.mapIdx of

theorem length_all (rules : List Rule) : (all rules).length = rules.length := by simp [all]

theorem rules_all (rules : List Rule) : (all rules).map PreparedRule.rule = rules := by
  apply List.ext_getElem?
  intro i
  cases h : rules[i]? <;> simp [all, of, h]

end PreparedRule
end OperatorCalculus
