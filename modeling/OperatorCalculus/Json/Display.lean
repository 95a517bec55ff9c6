import OperatorCalculus.Json.Value

namespace OperatorCalculus
namespace Json

mutual
def inspect : Json → Text
  | .null => ['N', 'o', 'n', 'e']
  | .bool true => ['T', 'r', 'u', 'e']
  | .bool false => ['F', 'a', 'l', 's', 'e']
  | .int n => Text.ofInt n
  | .real x => Decimal.write "inf".toList "nan".toList x
  | .str t => Text.quoted t
  | .torn units => Spelling.quoted units
  | .arr items => '[' :: inspectItems items ++ [']']
  | .obj members => '\x7b' :: inspectMembers members ++ ['\x7d']

def inspectItems : List Json → Text
  | [] => []
  | [v] => inspect v
  | v :: more => inspect v ++ ',' :: ' ' :: inspectItems more

def inspectMembers : List (Spelling × Json) → Text
  | [] => []
  | [(k, v)] => Spelling.quoted k ++ ':' :: ' ' :: inspect v
  | (k, v) :: more => Spelling.quoted k ++ ':' :: ' ' :: inspect v ++ ',' :: ' ' :: inspectMembers more
end

def display : Json → Spelling
  | .str t => Spelling.ofText t
  | .torn units => units
  | v => Spelling.ofText (inspect v)

end Json
end OperatorCalculus
