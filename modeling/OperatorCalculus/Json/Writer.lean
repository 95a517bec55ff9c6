import OperatorCalculus.Json.Value

namespace OperatorCalculus
namespace Json

def escapeChar (c : Char) : Text :=
  let n := c.toNat
  if n == 0x22 then ['\\', c]
  else if c == '\\' then ['\\', '\\']
  else if n == 0x0A then ['\\', 'n']
  else if n == 0x0D then ['\\', 'r']
  else if n == 0x09 then ['\\', 't']
  else if n == 0x0C then ['\\', 'f']
  else if n == 0x08 then ['\\', 'b']
  else if n < 0x20 then
    ['\\', 'u', '0', '0', Nat.digitChar (n / 16), Nat.digitChar (n % 16)]
  else [c]

def writeString (t : Text) : Text := '\x22' :: t.flatMap escapeChar ++ ['\x22']

def escapeUnit : StringUnit → Text
  | .char c => escapeChar c
  | .half code => '\\' :: 'u' :: Text.hexDigits 4 code

def writeSpelling (units : Spelling) : Text := '\x22' :: units.flatMap escapeUnit ++ ['\x22']

def writeReal (x : Float) : Text := Decimal.write "Infinity".toList "NaN".toList x

mutual
def write : Json → Text
  | .null => ['n', 'u', 'l', 'l']
  | .bool true => ['t', 'r', 'u', 'e']
  | .bool false => ['f', 'a', 'l', 's', 'e']
  | .int n => Text.ofInt n
  | .real x => writeReal x
  | .str t => writeString t
  | .torn units => writeSpelling units
  | .arr items => '[' :: writeItems items ++ [']']
  | .obj members => '\x7b' :: writeMembers members ++ ['\x7d']

def writeItems : List Json → Text
  | [] => []
  | [v] => write v
  | v :: more => write v ++ ',' :: ' ' :: writeItems more

def writeMembers : List (Spelling × Json) → Text
  | [] => []
  | [(k, v)] => writeSpelling k ++ ':' :: ' ' :: write v
  | (k, v) :: more => writeSpelling k ++ ':' :: ' ' :: write v ++ ',' :: ' ' :: writeMembers more
end

def newline (depth : Nat) : Text := '\n' :: List.replicate (2 * depth) ' '

mutual
def layout (depth : Nat) : Json → Text
  | .null => ['n', 'u', 'l', 'l']
  | .bool true => ['t', 'r', 'u', 'e']
  | .bool false => ['f', 'a', 'l', 's', 'e']
  | .int n => Text.ofInt n
  | .real x => writeReal x
  | .str t => writeString t
  | .torn units => writeSpelling units
  | .arr [] => ['[', ']']
  | .arr (v :: more) =>
    '[' :: newline (depth + 1) ++ layout (depth + 1) v ++ layoutItems (depth + 1) more ++
      newline depth ++ [']']
  | .obj [] => ['\x7b', '\x7d']
  | .obj ((k, v) :: more) =>
    '\x7b' :: newline (depth + 1) ++ writeSpelling k ++ ':' :: ' ' :: layout (depth + 1) v ++
      layoutMembers (depth + 1) more ++ newline depth ++ ['\x7d']

def layoutItems (depth : Nat) : List Json → Text
  | [] => []
  | v :: more => ',' :: newline depth ++ layout depth v ++ layoutItems depth more

def layoutMembers (depth : Nat) : List (Spelling × Json) → Text
  | [] => []
  | (k, v) :: more =>
    ',' :: newline depth ++ writeSpelling k ++ ':' :: ' ' :: layout depth v ++
      layoutMembers depth more
end

end Json
end OperatorCalculus
