import OperatorCalculus.Rule.Shipped.Entry

namespace OperatorCalculus
namespace Rule

def theoremRules : List Rule := [
  entry "thm-contradiction" "Contradiction Rule" "theorem" "logic" "Error implies any code"
    ", \\Or , \\Ri , \\Tc c_1," ", \\Tc c_2," "Paradox" "Theorems of contradiction",
  entry "thm-value-contradiction" "Value Contradiction" "theorem" "logic"
    "Contradictory value comparison implies error" ", i \\Pe j, i \\nPe j," ", \\Or," "Paradox"
    "Theorems of contradiction",
  entry "thm-null-contradiction" "Null Contradiction" "theorem" "logic"
    "Contradictory null comparison implies error" ", i \\Pu, i \\nPu," ", \\Or," "Paradox"
    "Theorems of contradiction",
  entry "thm-identical-contradiction" "Identical Contradiction" "theorem" "logic"
    "Contradictory identical comparison implies error" ", i \\Ps j, i \\nPs j," ", \\Or," "Paradox"
    "Theorems of contradiction",
  entry "def-Pc" "Node Connectivity Definition" "definition" "relationships"
    "Definition of node connectivity relation Pc" ", \\Blb\x7bi \\Pc j\x7d\x7b,\x7d\x7b,\x7d"
    ",i \\Oc i_0, Rcpo(i_0;j), i_0 \\Os, \\Blb\x7bi \\Ps j\x7d\x7b,\x7d\x7b,\x7d"
    "Node Connectivity" "Definition",
  entry "thm-Pc-reflexive" "Pc Reflexivity" "theorem" "relationships"
    "Node connectivity is reflexive" ", i \\nPu," ", i \\nPu, i \\Pc i," "Node Connectivity"
    "Theorems",
  entry "thm-Pc-transitive" "Pc Transitivity" "theorem" "relationships"
    "Node connectivity is transitive" ", i \\Pc j, j \\Pc k," ", i \\Pc j, j \\Pc k, i \\Pc k,"
    "Node Connectivity" "Theorems",
  entry "def-Pn" "Node Continuity Definition" "definition" "relationships"
    "Definition of next node relation Pn" ", \\Blb\x7bi \\Pn j\x7d\x7b,\x7d\x7b,\x7d"
    ", i \\On, \\Blb\x7bi \\Ps j\x7d\x7b,\x7d\x7b,\x7d" "Node Continuity" "Definition",
  entry "thm-Pn-unique" "Next Node Uniqueness" "theorem" "relationships" "Next node is unique"
    ", i \\Pn j, i \\Pn k," ", i \\Pn j, i \\Pn k, j \\Ps k," "Node Continuity" "Theorems",
  entry "thm-subnode-transitive" "Subnode Transitivity" "theorem" "relationships"
    "Subnode relationship with connectivity implies connectivity" ", i \\Ob j, j \\Pc k,"
    ", i \\Ob j, j \\Pc k, i \\Pc k," "Relationship of Subnode" "Theorems",
  entry "thm-Pe-reflexive" "Value Equality Reflexivity" "theorem" "relationships"
    "Value equality is reflexive" ", i \\nPu," ", i \\nPu, i \\Pe i," "Number Equal Relationship"
    "Theorems",
  entry "thm-Pe-symmetric" "Value Equality Symmetry" "theorem" "relationships"
    "Value equality is symmetric" ", i \\Pe j," ", j \\Pe i," "Number Equal Relationship"
    "Theorems",
  entry "thm-Pe-transitive" "Value Equality Transitivity" "theorem" "relationships"
    "Value equality is transitive" ", i \\Pe j, j \\Pe k," ", i \\Pe j, j \\Pe k, i \\Pe k,"
    "Number Equal Relationship" "Theorems",
  entry "def-Pne" "More Than Definition" "definition" "arithmetic"
    "Definition of more than relationship" ", \\Blb\x7bi \\Pne j\x7d\x7b,\x7d\x7b,\x7d"
    ", j \\Oc j_0, Rcpo(j_0;i), j_0 \\Os, \\Blb\x7bi \\nPs j\x7d\x7b,\x7d\x7b,\x7d"
    "Number More Less Than" "Definition",
  entry "def-Pnm" "Less Than Definition" "definition" "arithmetic"
    "Definition of less than relationship" ", \\Blb\x7bi \\Pnm j\x7d\x7b,\x7d\x7b,\x7d"
    ", i \\Oc i_0, Rcpo(i_0;j), i_0 \\Os, \\Blb\x7bi \\nPs j\x7d\x7b,\x7d\x7b,\x7d"
    "Number More Less Than" "Definition",
  entry "thm-Pne-Pnm-opposite" "More/Less Opposite" "theorem" "arithmetic"
    "More than and less than are opposite relationships" ", i \\Pne j," ", j \\Pnm i,"
    "Number More Less Than" "Theorems",
  entry "thm-Ps-reflexive" "Identical Node Reflexivity" "theorem" "propositions"
    "Identical node comparison is reflexive" ", i \\nPu," ", i \\nPu, i \\Ps i,"
    "Identical Node Comparison" "Unity",
  entry "thm-Ps-symmetric" "Identical Node Symmetry" "theorem" "propositions"
    "Identical node comparison is symmetric" ", i \\Ps j," ", j \\Ps i,"
    "Identical Node Comparison" "Symmetry",
  entry "thm-Ps-transitive" "Identical Node Transitivity" "theorem" "propositions"
    "Identical node comparison is transitive" ", i \\Ps j, j \\Ps k,"
    ", i \\Ps j, j \\Ps k, i \\Ps k," "Identical Node Comparison" "Transitivity",
  entry "thm-Pu-branch-prop" "Null Branch to Proposition" "theorem" "propositions"
    "Convert null branch function to proposition"
    ", \\Bb\x7bif(m \\Pu)\x7d\x7b, m \\Pu,\x7d\x7b,\x7d,"
    ", \\Bb\x7bif(m \\Pu)\x7d\x7b,\x7d\x7b,\x7d," "Node Null Comparison"
    "Branch function to propositions",
  entry "thm-nPu-branch-prop" "Not Null Branch to Proposition" "theorem" "propositions"
    "Convert not null branch function to proposition"
    ", \\Bb\x7bif(m \\Pu)\x7d\x7b,\x7d\x7b, m \\nPu,\x7d,"
    ", \\Bb\x7bif(m \\Pu)\x7d\x7b,\x7d\x7b,\x7d," "Node Null Comparison"
    "Branch function to propositions",
  entry "thm-empty-branch-value" "Empty Branch Value" "theorem" "logic"
    "Empty branch with value comparison" ", \\Bs\x7bi \\Oe j\x7d\x7b,\x7d\x7b,\x7d,"
    ", \\Bb\x7bif(i \\Pe j)\x7d\x7b,\x7d\x7b,\x7d," "Empty Branch Function" "Theorems",
  entry "thm-empty-branch-null" "Empty Branch Null" "theorem" "logic"
    "Empty branch with null comparison" ", \\Bs\x7bi \\Pu\x7d\x7b,\x7d\x7b,\x7d,"
    ", \\Bb\x7bif(i \\Pu)\x7d\x7b,\x7d\x7b,\x7d," "Empty Branch Function" "Theorems",
  entry "def-node-ring" "Node Ring Definition" "definition" "relationships"
    "Definition of node ring structure" ", i \\Pn j, j \\Pc i," ", i is part of ring," "Node Ring"
    "Definition",
  entry "thm-assign-temp-swap" "Assign Temp Swap" "theorem" "operators"
    "Assign operator swaps with temp space operator" ", \\Ot g, t \\Oa j," ", t \\Oa j, \\Ot g,"
    "Assign Operator Temp Space" "Swap",
  entry "thm-same-operand-id-copy" "Same Operand ID-Copy Swap" "theorem" "operators"
    "ID and Copy operators on same operand can swap" ", i \\Od m, i \\Oc n,"
    ", i \\Oc n, i \\Od m," "Swap Theorems Same Operand" "Operators",
  entry "thm-same-operand-id-subnode" "Same Operand ID-Subnode Swap" "theorem" "operators"
    "ID and Subnode operators on same operand can swap" ", i \\Od m, i \\Ob n,"
    ", i \\Ob n, i \\Od m," "Swap Theorems Same Operand" "Operators"]

end Rule
end OperatorCalculus
