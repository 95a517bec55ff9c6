import OperatorCalculus.Expression.Canonical

namespace OperatorCalculus

namespace Report

def ruler : Text := List.replicate 60 '='

def placeholder : Text := ['#']

def operandLine (o : NumberedOperand) : Text :=
  "  #".toList ++ Text.ofNat o.position ++ ' ' :: o.value ++ " -> ".toList ++
    Text.ofNat o.number ++ "  [".toList ++ o.kind.name ++ [']']

def normalization (title : Text) (n : Normalized) : List Text :=
  [[], ruler,
    title ++ ": ".toList ++ n.expression,
    "  skeleton:   ".toList ++ Expression.skeleton placeholder n.expression,
    "  normalized: ".toList ++ n.normalized,
    "  integer:    ".toList ++ n.integer,
    "Operands (".toList ++ Text.ofNat n.operands.length ++ "):".toList] ++
  n.operands.map operandLine ++ [ruler]

def distinct (values : List Text) : List Text := Numbering.enterAll [] values

def shared (p : NormalizedPair) : List Text :=
  let right := p.right.operands.map NumberedOperand.value
  ((distinct (p.left.operands.map NumberedOperand.value)).filter right.elem).mergeSort Text.le

def pair (p : NormalizedPair) : List Text :=
  normalization "Left".toList p.left ++ normalization "Right".toList p.right ++
  (match shared p with
    | [] => []
    | values => ["  Shared operands: ".toList ++ Text.join [',', ' '] values]) ++
  ["  Canonical: ".toList ++ p.left.integer ++ " <=> ".toList ++ p.right.integer]

end Report
end OperatorCalculus
