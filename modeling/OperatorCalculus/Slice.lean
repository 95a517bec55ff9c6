-- Pieces of a list between two places. A negative place counts from the end; a place
-- outside the list is moved to its nearer end. A piece never wraps around.
namespace OperatorCalculus

namespace Slice

def place (length : Nat) (i : Int) : Nat :=
  if i < 0 then (length + i).toNat else min i.toNat length

def upTo {α : Type} (start : Nat) (stop : Int) (xs : List α) : List α :=
  (xs.take (place xs.length stop)).drop start

def between {α : Type} (start stop : Option Int) (xs : List α) : List α :=
  upTo (place xs.length (start.getD 0)) (stop.getD xs.length) xs

-- One item; a negative place counts from the end and nothing is moved.
def item? {α : Type} (i : Int) (xs : List α) : Option α :=
  if i < 0 then (if xs.length + i < 0 then none else xs[(xs.length + i).toNat]?)
  else xs[i.toNat]?

theorem place_le (length : Nat) (i : Int) : place length i ≤ length := by
  simp only [place]
  split <;> omega

theorem length_upTo {α : Type} (start : Nat) (stop : Int) (xs : List α) :
    (upTo start stop xs).length = place xs.length stop - start := by
  have := place_le xs.length stop
  simp [upTo, Nat.min_eq_left this]

end Slice
end OperatorCalculus
