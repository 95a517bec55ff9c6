import OperatorCalculus.Expression.Token

-- Candidates may overlap. The cover visits them by rank and keeps each one that
-- overlaps nothing kept before it; a dropped candidate is therefore always to be
-- blamed on a kept one, never on one that was itself dropped.
namespace OperatorCalculus

structure Candidate (κ : Type) where
  priority : Int
  span : Span κ
deriving DecidableEq, Repr

namespace Candidate

-- The lower priority number first, then the longer span, then the earlier one.
-- Candidates that agree in all three stay in the order in which they were given.
def ranks {κ : Type} (a b : Candidate κ) : Bool :=
  a.priority < b.priority ||
    (a.priority == b.priority &&
      (b.span.value.length < a.span.value.length ||
        (a.span.value.length == b.span.value.length && a.span.index ≤ b.span.index)))

end Candidate

namespace Cover

def keep {κ : Type} (kept : List (Span κ)) : List (Candidate κ) → List (Span κ)
  | [] => kept
  | c :: rest =>
    if kept.any c.span.overlaps then keep kept rest else keep (kept ++ [c.span]) rest

def earlier {κ : Type} (a b : Span κ) : Bool := a.index ≤ b.index

def ofCandidates {κ : Type} (cs : List (Candidate κ)) : List (Span κ) :=
  (keep [] (cs.mergeSort Candidate.ranks)).mergeSort earlier

theorem mem_keep_of_mem {κ : Type} {s : Span κ} (cs : List (Candidate κ)) :
    ∀ {kept : List (Span κ)}, s ∈ kept → s ∈ keep kept cs := by
  induction cs with
  | nil => intro kept h; exact h
  | cons c rest ih =>
    intro kept h
    simp only [keep]
    split
    · exact ih h
    · exact ih (by simp [h])

end Cover
end OperatorCalculus
