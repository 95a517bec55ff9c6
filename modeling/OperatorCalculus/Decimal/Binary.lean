namespace OperatorCalculus
namespace Decimal

-- The value is mantissa times two to the exponent. The gap below a number whose
-- mantissa is the least of its binade is half the gap above it.
structure Magnitude where
  mantissa : Nat
  exponent : Int
  narrowBelow : Bool

inductive Value where
  | finite (negative : Bool) (size : Magnitude)
  | infinite (negative : Bool)
  | undefined

def Value.ofBits (bits : Nat) : Value :=
  let negative := bits / Nat.pow 2 63 == 1
  let biased := bits / Nat.pow 2 52 % 2048
  let fraction := bits % Nat.pow 2 52
  if biased == 2047 then
    (if fraction == 0 then .infinite negative else .undefined)
  else if biased == 0 then .finite negative ⟨fraction, -1074, false⟩
  else
    .finite negative
      ⟨Nat.pow 2 52 + fraction, Int.ofNat biased - 1075, fraction == 0 && biased != 1⟩

def Value.ofFloat (x : Float) : Value := .ofBits x.toBits.toNat

structure Ratio where
  num : Nat
  den : Nat

def scaled (a : Nat) (exponent shift : Int) : Ratio :=
  ⟨a * Nat.pow 2 exponent.toNat * Nat.pow 10 shift.toNat,
    Nat.pow 2 (-exponent).toNat * Nat.pow 10 (-shift).toNat⟩

def roundRatio (r : Ratio) : Nat :=
  let q := r.num / r.den
  let rest := 2 * (r.num % r.den)
  if rest > r.den || (rest == r.den && q % 2 == 1) then q + 1 else q

end Decimal
end OperatorCalculus
