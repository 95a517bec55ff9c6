import OperatorCalculus.Decimal.Binary
import OperatorCalculus.Text.Basic

-- The shortest decimal that reads back as the same number: the coarsest power of
-- ten with a multiple inside the interval that rounds to the number, and of the
-- two multiples next to the number the nearer one.
namespace OperatorCalculus
namespace Decimal

structure Digits where
  coefficient : Nat
  exponent : Int
deriving DecidableEq, Repr

-- Interval ends in quarters of the last binary place. The ends belong to the
-- interval exactly when the mantissa is even.
def readsBack (m : Magnitude) (exponent : Int) (p : Nat) : Bool :=
  let unit := scaled 1 (m.exponent - 2) (-exponent)
  let low := (4 * m.mantissa - (if m.narrowBelow then 1 else 2)) * unit.num
  let high := (4 * m.mantissa + 2) * unit.num
  let point := p * unit.den
  if m.mantissa % 2 == 0 then low ≤ point && point ≤ high else low < point && point < high

def nearestMultiple (m : Magnitude) (exponent : Int) : Option Nat :=
  let r := scaled m.mantissa m.exponent (-exponent)
  let below := r.num / r.den
  match readsBack m exponent below, readsBack m exponent (below + 1) with
  | true, true => some (roundRatio r)
  | true, false => some below
  | false, true => some (below + 1)
  | false, false => none

-- The search goes from the coarse to the fine; the finest power needed for any
-- number is ten to the minus 324.
def coarsest (m : Magnitude) : Nat → Int → Digits
  | 0, exponent => ⟨0, exponent⟩
  | fuel + 1, exponent =>
    match nearestMultiple m exponent with
    | some p => ⟨p, exponent⟩
    | none => coarsest m fuel (exponent - 1)

def shortest (m : Magnitude) : Digits :=
  if m.mantissa == 0 then ⟨0, 0⟩ else coarsest m 640 309

-- Positional while the point stands within sixteen places to the right and three
-- to the left of the digits; a whole number keeps one zero behind the point.
def writeDigits (d : Digits) : Text :=
  let ds := Text.ofNat d.coefficient
  let n : Int := ds.length
  let point := n + d.exponent
  if -4 < point && point ≤ 16 then
    if point ≤ 0 then '0' :: '.' :: List.replicate (-point).toNat '0' ++ ds
    else if n ≤ point then ds ++ List.replicate (point - n).toNat '0' ++ ['.', '0']
    else ds.take point.toNat ++ '.' :: ds.drop point.toNat
  else
    let e := point - 1
    let size := Text.ofNat e.natAbs
    let padded := if size.length < 2 then '0' :: size else size
    let tail := match ds.drop 1 with
      | [] => []
      | more => '.' :: more
    ds.take 1 ++ tail ++ 'e' :: (if e < 0 then '-' else '+') :: padded

def signed (negative : Bool) (t : Text) : Text := if negative then '-' :: t else t

def write (infinity undefined : Text) (x : Float) : Text :=
  match Value.ofFloat x with
  | .finite negative m => signed negative (writeDigits (shortest m))
  | .infinite negative => signed negative infinity
  | .undefined => undefined

end Decimal
end OperatorCalculus
