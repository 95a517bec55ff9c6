import OperatorCalculus.Rule.Shipped.Entry

namespace OperatorCalculus
namespace Rule

def functionRules : List Rule := [
  entry "def-R-i" "Recursive Function R(i)" "definition" "induction"
    "Definition of the recursive function R(i) that traverses to null" ",R(i),"
    ",\\Bb\x7bif(i \\Pu)\x7d\x7b,\x7d\x7b, i \\On, R(i),\x7d," "Recursive Functions"
    "Definition of R(i)",
  entry "thm-R-i-null" "R(i) on Null" "theorem" "induction" "R(i) simplifies when i is null"
    ", i \\Pu, R(i)," ", i \\Pu," "Recursive Functions" "Theorems of R(i)",
  entry "thm-R-i-not-null" "R(i) on Non-Null" "theorem" "induction"
    "R(i) expands when i is not null" ", i \\nPu, R(i)," ", i \\nPu, i \\On, R(i),"
    "Recursive Functions" "Theorems of R(i)",
  entry "thm-R-i-result" "R(i) Result" "theorem" "induction" "R(i) terminates with null result"
    ", R(i)," ", R(i), i \\Pu," "Recursive Functions" "Theorems of R(i)",
  entry "thm-R-i-release" "R(i) with Release" "theorem" "induction"
    "R(i) followed by release simplifies" ", R(i), i \\Os," ", i \\Os," "Recursive Functions"
    "Theorems of R(i)",
  entry "def-Rc-ij" "Recursive Function Rc(i;j)" "definition" "induction"
    "Definition of paired recursive function Rc(i;j)" ",Rc(i;j),"
    ",\\Bb\x7bif(i \\Pu)\x7d\x7b,\x7d\x7b,\\Bb\x7bif(j \\Pu)\x7d\x7b,\x7d\x7b, i \\On, j \\On, Rc(i;j),\x7d,\x7d,"
    "Recursive Functions" "Definition of Rc(i;j)",
  entry "thm-Rc-i-null" "Rc(i;j) when i is Null" "theorem" "induction"
    "Rc(i;j) simplifies when i is null" ", i \\Pu, Rc(i;j)," ", i \\Pu," "Recursive Functions"
    "Theorems of Rc(i;j)",
  entry "thm-Rc-j-null" "Rc(i;j) when j is Null" "theorem" "induction"
    "Rc(i;j) simplifies when j is null" ", j \\Pu, Rc(i;j)," ", j \\Pu," "Recursive Functions"
    "Theorems of Rc(i;j)",
  entry "def-tree-induction" "Tree Order Induction" "axiom" "induction"
    "Axiom of inference for tree order induction"
    "premise: i \\Pu ⊢ P(i); \\In \\Pn i, P(i) ⊢ P(i)" "conclusion: P(i)" "Tree Order Induction"
    "Axiom of Tree Order Induction",
  entry "thm-Pb-transitive" "Pb Transitivity" "theorem" "induction"
    "The before relationship is transitive" ", i \\Pb j, j \\Pb k,"
    ", i \\Pb j, j \\Pb k, i \\Pb k," "Tree Order Induction" "Theorems of tree order",
  entry "def-SHi-swap" "Flag Object SHi Swap" "definition" "induction"
    "Swap definition for flag object SHi with identical node" ",\\In \\Ps i, \\Ot m,"
    ", \\Ot m, \\In \\Ps i," "Next Order Induction" "Definition of flag object SHi",
  entry "def-SHi-next" "Flag Object SHi with Next" "definition" "induction"
    "Definition of flag object SHi with next node" ", \\In \\Pn i,"
    ", i \\Oc i_0, i_0 \\Op, \\In \\Ps i_0, i_0 \\Os," "Next Order Induction"
    "Definition of flag object SHi with next node",
  entry "def-IsCpo" "IsCpo Condition" "definition" "induction" "Definition of IsCpo(i;r) condition"
    ",IsCpo(i;r)," ", i \\nPc r, r \\Pu," "Recursive Functions" "Definition of IsCpo",
  entry "def-Rcpo" "Recursive Function Rcpo(i;r)" "definition" "induction"
    "Definition of copy operation recursive function" ", Rcpo(i;r),"
    ", \\Bb\x7bif(i \\Pu)\x7d\x7b,\x7d\x7b, r \\Ob r_0, i \\Od t, t \\Oa r_0, r_0 \\Os, i \\On, Rcpo(i;r), \x7d,"
    "Recursive Functions" "Definition of Rcpo",
  entry "thm-Rcpo-null" "Rcpo on Null" "theorem" "induction" "Rcpo(i;r) simplifies when i is null"
    ", i \\Pu, Rcpo(i;r)," ", i \\Pu," "Recursive Functions" "Theorems of Rcpo",
  entry "def-Cpo" "Function Cpo(r)" "definition" "induction" "Definition of the Cpo copy function"
    ", Cpo(r)," ", r \\Od m, m \\Oa r, m \\Os," "Functions" "Definition of Cpo(r)",
  entry "thm-Cpo-property" "Cpo Property" "theorem" "induction" "Cpo(r) implies r is not null"
    ", Cpo(r)," "~, r \\nPu," "Functions" "Property of Cpo",
  entry "thm-add-swap-copy" "Addition Swap with Copy" "theorem" "arithmetic"
    "Addition operation swaps with copy operator" ", i+j:r, m \\Oc n," ", m \\Oc n, i+j:r,"
    "Addition" "Swap",
  entry "thm-add-swap-id" "Addition Swap with ID" "theorem" "arithmetic"
    "Addition operation swaps with ID operator" ", i+j:r, m \\Od n," ", m \\Od n, i+j:r,"
    "Addition" "Swap",
  entry "thm-add-swap-release" "Addition Swap with Release" "theorem" "arithmetic"
    "Addition operation swaps with release operator" ", i+j:r, m \\Os," ", m \\Os, i+j:r,"
    "Addition" "Swap",
  entry "thm-add-swap-prop" "Addition Swap with Proposition" "theorem" "arithmetic"
    "Addition operation swaps with value proposition" ", i+j:r, m \\Pe n," ", m \\Pe n, i+j:r,"
    "Addition" "Swap",
  entry "thm-add-general" "Addition General Property" "theorem" "arithmetic"
    "Addition can always be performed with release" "," ", i+j:r, r \\Os," "Addition"
    "General property",
  entry "def-mult" "Multiplication Definition" "definition" "arithmetic"
    "Definition of multiplication operation" ", i × j:r,"
    ", \\Ot r, r \\Oc r_0, i \\Oc i_0, Rcpm(i_0;j;r_0), i_0 \\Os, r_0 \\Os," "Multiplication"
    "Definition",
  entry "thm-mult-swap-copy" "Multiplication Swap with Copy" "theorem" "arithmetic"
    "Multiplication operation swaps with copy operator" ", i × j:r, m \\Oc n,"
    ", m \\Oc n, i × j:r," "Multiplication" "Swap",
  entry "thm-mult-swap-release" "Multiplication Swap with Release" "theorem" "arithmetic"
    "Multiplication operation swaps with release operator" ", i × j:r, m \\Os,"
    ", m \\Os, i × j:r," "Multiplication" "Swap",
  entry "thm-mult-swap-prop" "Multiplication Swap with Proposition" "theorem" "arithmetic"
    "Multiplication operation swaps with propositions" ", i × j:r, m \\Pe n,"
    ", m \\Pe n, i × j:r," "Multiplication" "Swap",
  entry "def-Del" "Delete Function Del(j)" "definition" "operators"
    "Definition of the delete node function" ",Del(j)," ", j \\nPu, \\Ot t, t \\Oa j, t \\Os,"
    "Axioms of Assign Operator" "Definition of Del(j)",
  entry "thm-Del-swap-id" "Del Swap with ID" "theorem" "operators"
    "Delete function swaps with ID operator when nodes differ" ", m \\nPs j, m \\Od n, Del(j),"
    ", m \\nPs j, Del(j), m \\Od n," "Delete Node Function" "Swap",
  entry "thm-Del-swap-global" "Del Swap with Global" "theorem" "operators"
    "Delete function swaps with global space operator" ", \\Og g, Del(j)," ", Del(j), \\Og g,"
    "Delete Node Function" "Swap",
  entry "def-Ins" "Insert Function Ins(t;j)" "definition" "operators"
    "Definition of the insert node function" ",Ins(t;j)," ", t \\nPu, t \\Oa j,"
    "Axioms of Assign Operator" "Definition of Ins(t;j)",
  entry "thm-Ins-property" "Ins Implies Value Equality" "theorem" "operators"
    "Insert function implies value equality" ", Ins(t;j)," "~, t \\Pe j," "Insert Node Function"
    "Property"]

end Rule
end OperatorCalculus
