import OperatorCalculus.Expression.Canonical
import OperatorCalculus.Inference.Position

namespace OperatorCalculus

namespace WholeSide

def exact (target rule : Sides) : Option Position :=
  if target.left == rule.left && target.right == rule.right then
    some (.whole .both "target equals rule")
  else none

-- What is left of a side when the numbers are dropped.
def shape (t : Text) : Text := t.filter fun c => !Text.isDigit c

def renumbered (s : Sides) : Sides :=
  let forms := Expression.canonicalPair s.left s.right
  ⟨forms.1, forms.2⟩

-- The numbering of a rule depends on which side is read first, so a reversed target
-- lines up with the rule only after it is numbered anew. The shapes are compared
-- first, which spares the renumbering of targets that cannot agree.
def commutativity (target rule : Sides) : Option Position :=
  if target.left == rule.right && target.right == rule.left then
    some (.whole .both "target is the rule reversed")
  else if shape target.right == shape rule.left && shape target.left == shape rule.right &&
      renumbered target.reverse == rule then
    some (.whole .both "target is the rule reversed, renumbered")
  else none

def transitivity (target rule : Sides) : Option Position :=
  if target.left == rule.left && target.right == rule.right then
    some (.whole .left "target left chains through rule left")
  else if target.left == rule.right && target.right == rule.left then
    some (.whole .left "target left chains through rule right")
  else if target.right == rule.left && target.left == rule.right then
    some (.whole .right "target right chains through rule left")
  else if target.right == rule.right && target.left == rule.left then
    some (.whole .right "target right chains through rule right")
  else none

theorem exact_isSome (target rule : Sides) : (exact target rule).isSome = true ↔ target = rule := by
  obtain ⟨tl, tr⟩ := target
  obtain ⟨rl, rr⟩ := rule
  by_cases h : tl = rl <;> by_cases k : tr = rr <;> simp [exact, h, k]

-- A chain through a common side needs the other sides to agree as well, so it never
-- reaches further than the two laws before it.
theorem exact_or_commutes_of_transitive {target rule : Sides}
    (h : (transitivity target rule).isSome = true) : target = rule ∨ target = rule.reverse := by
  obtain ⟨tl, tr⟩ := target
  obtain ⟨rl, rr⟩ := rule
  simp only [transitivity, Bool.and_eq_true, beq_iff_eq] at h
  simp only [Sides.reverse, Sides.mk.injEq]
  split at h
  · next e => exact .inl e
  · split at h
    · next e => exact .inr e
    · split at h
      · next e => exact .inr ⟨e.2, e.1⟩
      · split at h
        · next e => exact .inl ⟨e.2, e.1⟩
        · simp at h

end WholeSide
end OperatorCalculus
