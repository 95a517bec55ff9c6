import OperatorCalculus.Text.Basic

namespace OperatorCalculus
namespace Text

-- The zeros of the scripts with decimal digits; nine more digits follow each.
def decimalZeros : List Nat := [
  48, 1632, 1776, 1984, 2406, 2534, 2662, 2790, 2918, 3046, 3174, 3302, 3430, 3558, 3664, 3792,
  3872, 4160, 4240, 6112, 6160, 6470, 6608, 6784, 6800, 6992, 7088, 7232, 7248, 42528, 43216,
  43264, 43472, 43504, 43600, 44016, 65296, 66720, 68912, 69734, 69872, 69942, 70096, 70384,
  70736, 70864, 71248, 71360, 71472, 71904, 72016, 72784, 73040, 73120, 92768, 92864, 93008,
  120782, 120792, 120802, 120812, 120822, 123200, 123632, 125264, 130032]

def digitValue? (c : Char) : Option Nat :=
  (decimalZeros.find? fun first => first ≤ c.toNat && c.toNat ≤ first + 9).map fun first =>
    c.toNat - first

def isDecimalDigit (c : Char) : Bool := (digitValue? c).isSome

def digitsAfter? : Text → Option (List Nat)
  | [] => none
  | c :: rest =>
    match digitValue? c with
    | none => none
    | some d =>
      match rest with
      | [] => some [d]
      | '_' :: more => (digitsAfter? more).map (d :: ·)
      | more => (digitsAfter? more).map (d :: ·)

def typedDigitLimit : Nat := 4300

def natural? (t : Text) : Option Nat :=
  match digitsAfter? t with
  | none => none
  | some digits =>
    if typedDigitLimit < digits.length then none
    else some (digits.foldl (fun n d => n * 10 + d) 0)

def integer? (t : Text) : Option Int :=
  match trim t with
  | '-' :: rest => (natural? rest).map fun n => -(n : Int)
  | '+' :: rest => (natural? rest).map fun n => (n : Int)
  | rest => (natural? rest).map fun n => (n : Int)

end Text
end OperatorCalculus
