import OperatorCalculus.Text.CaseTable
import OperatorCalculus.Text.Printable

-- Full lower-casing. Two rules go beyond one code point: the dotted capital I
-- becomes two code points, and a capital sigma is final at the end of a word.
-- Lower-casing therefore neither keeps lengths nor commutes with slicing.
namespace OperatorCalculus
namespace Text

def CaseRun.holds (r : CaseRun) (n : Nat) : Bool :=
  r.first ≤ n && n ≤ r.last && (n - r.first) % r.step == 0

def lowerSimple (c : Char) : Char :=
  let n := c.toNat
  if n < 128 then (if isUpper c then Char.ofNat (n + 32) else c)
  else match caseRuns.find? (·.holds n) with
    | some r => Char.ofNat (Int.toNat (n + r.shift))
    | none => c

def isCased (c : Char) : Bool :=
  if c.toNat < 128 then isLetter c else inRanges casedRanges c.toNat

def isCaseIgnorable (c : Char) : Bool := inRanges caseIgnorableRanges c.toNat

def nextIsCased (t : Text) : Bool :=
  match t.dropWhile isCaseIgnorable with
  | [] => false
  | c :: _ => isCased c

-- The text before the position is handed over in reverse.
def lowerAt (before : Text) (c : Char) (after : Text) : Text :=
  if c == 'Σ' then
    (if nextIsCased before && !nextIsCased after then ['ς'] else ['σ'])
  else if c == 'İ' then ['i', '\u0307']
  else [lowerSimple c]

def lowerFrom (before : Text) : Text → Text
  | [] => []
  | c :: rest => lowerAt before c rest ++ lowerFrom (c :: before) rest

def lower (t : Text) : Text := lowerFrom [] t

end Text
end OperatorCalculus
