import OperatorCalculus.Text.Printable

namespace OperatorCalculus
namespace Text

def apostrophe : Char := '\x27'
def doubleMark : Char := '\x22'

def hexDigits : Nat → Nat → Text
  | 0, _ => []
  | width + 1, n => hexDigits width (n / 16) ++ [Nat.digitChar (n % 16)]

def quoteMark (t : Text) : Char :=
  if t.elem apostrophe && !t.elem doubleMark then doubleMark else apostrophe

def escapeFor (mark c : Char) : Text :=
  let n := c.toNat
  if c == mark || c == '\\' then ['\\', c]
  else if c == '\n' then ['\\', 'n']
  else if c == '\r' then ['\\', 'r']
  else if c == '\t' then ['\\', 't']
  else if isPrintable c then [c]
  else if n < 0x100 then '\\' :: 'x' :: hexDigits 2 n
  else if n < 0x10000 then '\\' :: 'u' :: hexDigits 4 n
  else '\\' :: 'U' :: hexDigits 8 n

def quoted (t : Text) : Text :=
  let mark := quoteMark t
  mark :: t.flatMap (escapeFor mark) ++ [mark]

end Text
end OperatorCalculus
