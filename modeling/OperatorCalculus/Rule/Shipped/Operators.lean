import OperatorCalculus.Rule.Shipped.Entry

namespace OperatorCalculus
namespace Rule

def operatorRules : List Rule := [
  entry "swap-id-1" "ID Swap (same node)" "axiom" "operators"
    "Swap two ID operators on the same node" ",i \\Od m, i \\Od n," ",i \\Od n, i \\Od m,"
    "Axioms of Operators" "swap axioms of operator - id operator",
  entry "swap-id-2" "ID Swap (different nodes)" "axiom" "operators"
    "Swap ID operators on different nodes" ",i \\Od m, j \\Od n," ",j \\Od n, i \\Od m,"
    "Axioms of Operators" "swap axioms of operator - id operator",
  entry "swap-id-copy" "ID-Copy Swap" "axiom" "operators" "Swap ID and Copy operators"
    ",i \\Od m, j \\Oc n," ",j \\Oc n, i \\Od m," "Axioms of Operators"
    "swap axioms of operator - id operator",
  entry "swap-id-subnode" "ID-Subnode Swap" "axiom" "operators" "Swap ID and Subnode operators"
    ",i \\Od m, j \\Ob n," ",j \\Ob n, i \\Od m," "Axioms of Operators"
    "swap axioms of operator - id operator",
  entry "swap-id-global" "ID-Global Swap" "axiom" "operators" "Swap ID and Global Space operators"
    ",i \\Od m, \\Og n," ", \\Og n, i \\Od m," "Axioms of Operators"
    "swap axioms of operator - id operator",
  entry "swap-id-temp" "ID-Temp Swap" "axiom" "operators" "Swap ID and Temporary Space operators"
    ",i \\Od m, \\Ot n," ", \\Ot n, i \\Od m," "Axioms of Operators"
    "swap axioms of operator - id operator",
  entry "swap-id-next" "ID-Next Swap" "axiom" "operators" "Swap ID and Next Node operators"
    ",i \\Od m, j \\On," ", j \\On, i \\Od m," "Axioms of Operators"
    "swap axioms of operator - id operator",
  entry "swap-id-release" "ID-Release Swap" "axiom" "operators" "Swap ID and Release operators"
    ",i \\Od m, j \\Os," ", j \\Os, i \\Od m," "Axioms of Operators"
    "swap axioms of operator - id operator",
  entry "swap-id-branch" "ID-Branch Distribution" "axiom" "operators"
    "Distribute ID operator into branch" ",i \\Od m, \\Blb\x7bj \\Oe t\x7d\x7b,\x7d\x7b,\x7d,"
    ", \\Blb\x7bj \\Oe t\x7d\x7b,i \\Od m,\x7d\x7b,i \\Od m,\x7d," "Axioms of Operators"
    "swap axioms of operator - id operator",
  entry "swap-copy-copy" "Copy Swap" "axiom" "operators" "Swap two Copy operators"
    ",i \\Oc m, j \\Oc n," ",j \\Oc n, i \\Oc m," "Axioms of Operators"
    "swap axioms of operator - copy operator",
  entry "swap-copy-subnode" "Copy-Subnode Swap" "axiom" "operators"
    "Swap Copy and Subnode operators" ",i \\Oc m, j \\Ob n," ",j \\Ob n, i \\Oc m,"
    "Axioms of Operators" "swap axioms of operator - copy operator",
  entry "swap-copy-global" "Copy-Global Swap" "axiom" "operators"
    "Swap Copy and Global Space operators" ",i \\Oc m, \\Og n," ", \\Og n, i \\Oc m,"
    "Axioms of Operators" "swap axioms of operator - copy operator",
  entry "swap-copy-temp" "Copy-Temp Swap" "axiom" "operators"
    "Swap Copy and Temporary Space operators" ",i \\Oc m, \\Ot n," ", \\Ot n, i \\Oc m,"
    "Axioms of Operators" "swap axioms of operator - copy operator",
  entry "swap-copy-next" "Copy-Next Swap" "axiom" "operators" "Swap Copy and Next Node operators"
    ",i \\Oc m, j \\On," ", j \\On, i \\Oc m," "Axioms of Operators"
    "swap axioms of operator - copy operator",
  entry "swap-copy-release" "Copy-Release Swap" "axiom" "operators"
    "Swap Copy and Release operators" ",i \\Oc m, j \\Os," ", j \\Os, i \\Oc m,"
    "Axioms of Operators" "swap axioms of operator - copy operator",
  entry "swap-copy-branch" "Copy-Branch Distribution" "axiom" "operators"
    "Distribute Copy operator into branch" ",i \\Oc m, \\Blb\x7bj \\Oe t\x7d\x7b,\x7d\x7b,\x7d"
    ", \\Blb\x7bj \\Oe t\x7d\x7b,i \\Oc m,\x7d\x7b,i \\Oc m,\x7d" "Axioms of Operators"
    "swap axioms of operator - copy operator",
  entry "swap-subnode-subnode" "Subnode Swap" "axiom" "operators" "Swap two Subnode operators"
    ",i \\Ob m, j \\Ob n," ",j \\Ob n, i \\Ob m," "Axioms of Operators"
    "swap axioms of operator - subnode operator",
  entry "swap-subnode-global" "Subnode-Global Swap" "axiom" "operators"
    "Swap Subnode and Global Space operators" ",i \\Ob m, \\Og n," ", \\Og n, i \\Ob m,"
    "Axioms of Operators" "swap axioms of operator - subnode operator",
  entry "swap-subnode-temp" "Subnode-Temp Swap" "axiom" "operators"
    "Swap Subnode and Temporary Space operators" ",i \\Ob m, \\Ot n," ", \\Ot n, i \\Ob m,"
    "Axioms of Operators" "swap axioms of operator - subnode operator",
  entry "swap-subnode-next" "Subnode-Next Swap" "axiom" "operators"
    "Swap Subnode and Next Node operators" ",i \\Ob m, j \\On," ", j \\On, i \\Ob m,"
    "Axioms of Operators" "swap axioms of operator - subnode operator",
  entry "swap-subnode-release" "Subnode-Release Swap" "axiom" "operators"
    "Swap Subnode and Release operators" ",i \\Ob m, j \\Os," ", j \\Os, i \\Ob m,"
    "Axioms of Operators" "swap axioms of operator - subnode operator",
  entry "swap-subnode-branch" "Subnode-Branch Distribution" "axiom" "operators"
    "Distribute Subnode operator into branch" ",i \\Ob m, \\Blb\x7bj \\Oe t\x7d\x7b,\x7d\x7b,\x7d,"
    ", \\Blb\x7bj \\Oe t\x7d\x7b,i \\Ob m,\x7d\x7b,i \\Ob m,\x7d," "Axioms of Operators"
    "swap axioms of operator - subnode operator",
  entry "swap-temp-temp" "Temp Swap" "axiom" "operators" "Swap two Temporary Space operators"
    ", \\Ot m, \\Ot n," ", \\Ot n, \\Ot m," "Axioms of Operators"
    "swap axioms of operator - temporary space operator",
  entry "swap-temp-global" "Temp-Global Swap" "axiom" "operators"
    "Swap Temporary and Global Space operators" ", \\Ot m, \\Og n," ", \\Og n, \\Ot m,"
    "Axioms of Operators" "swap axioms of operator - temporary space operator",
  entry "swap-temp-next" "Temp-Next Swap" "axiom" "operators"
    "Swap Temporary Space and Next Node operators" ", \\Ot m, j \\On," ", j \\On, \\Ot m,"
    "Axioms of Operators" "swap axioms of operator - temporary space operator",
  entry "swap-temp-release" "Temp-Release Swap" "axiom" "operators"
    "Swap Temporary Space and Release operators" ", \\Ot m, j \\Os," ", j \\Os, \\Ot m,"
    "Axioms of Operators" "swap axioms of operator - temporary space operator",
  entry "swap-temp-branch" "Temp-Branch Distribution" "axiom" "operators"
    "Distribute Temporary Space operator into branch"
    ", \\Ot m, \\Blb\x7bj \\Oe t\x7d\x7b,\x7d\x7b,\x7d,"
    ", \\Blb\x7bj \\Oe t\x7d\x7b, \\Ot m,\x7d\x7b, \\Ot m,\x7d," "Axioms of Operators"
    "swap axioms of operator - temporary space operator",
  entry "swap-global-global" "Global Swap" "axiom" "operators" "Swap two Global Space operators"
    ", \\Og m, \\Og n," ", \\Og n, \\Og m," "Axioms of Operators"
    "swap axioms of operator - global space operator",
  entry "swap-global-next" "Global-Next Swap" "axiom" "operators"
    "Swap Global Space and Next Node operators" ", \\Og m, j \\On," ", j \\On, \\Og m,"
    "Axioms of Operators" "swap axioms of operator - global space operator",
  entry "swap-global-release" "Global-Release Swap" "axiom" "operators"
    "Swap Global Space and Release operators" ", \\Og m, j \\Os," ", j \\Os, \\Og m,"
    "Axioms of Operators" "swap axioms of operator - global space operator",
  entry "swap-global-branch" "Global-Branch Distribution" "axiom" "operators"
    "Distribute Global Space operator into branch"
    ", \\Og m, \\Blb\x7bj \\Oe t\x7d\x7b,\x7d\x7b,\x7d,"
    ", \\Blb\x7bj \\Oe t\x7d\x7b, \\Og m,\x7d\x7b, \\Og m,\x7d," "Axioms of Operators"
    "swap axioms of operator - global space operator",
  entry "swap-next-next" "Next Swap" "axiom" "operators" "Swap two Next Node operators"
    ",i \\On, j \\On," ", j \\On, i \\On," "Axioms of Operators"
    "swap axioms of operator - next node operator",
  entry "swap-next-prev" "Next-Prev Swap" "axiom" "operators"
    "Swap Next and Previous Node operators on same node" ",i \\On, i \\Op," ", i \\Op, i \\On,"
    "Axioms of Operators" "swap axioms of operator - next node operator",
  entry "swap-next-release" "Next-Release Swap" "axiom" "operators"
    "Swap Next Node and Release operators" ",i \\On, j \\Os," ", j \\Os, i \\On,"
    "Axioms of Operators" "swap axioms of operator - next node operator",
  entry "swap-next-branch" "Next-Branch Distribution" "axiom" "operators"
    "Distribute Next Node operator into branch" ",i \\On, \\Blb\x7bj \\Oe t\x7d\x7b,\x7d\x7b,\x7d"
    ", \\Blb\x7bj \\Oe t\x7d\x7b,i \\On,\x7d\x7b,i \\On,\x7d" "Axioms of Operators"
    "swap axioms of operator - next node operator",
  entry "swap-release-release" "Release Swap" "axiom" "operators" "Swap two Release operators"
    ",i \\Os, j \\Os," ", j \\Os, i \\Os," "Axioms of Operators"
    "swap axioms of operator - release operator",
  entry "swap-release-branch-1" "Release-Branch Distribution 1" "axiom" "operators"
    "Distribute Release operator into branch" ",i \\Os, \\Blb\x7bj \\Oe t\x7d\x7b,\x7d\x7b,\x7d"
    ", \\Blb\x7bj \\Oe t\x7d\x7b,i \\Os,\x7d\x7b,i \\Os,\x7d" "Axioms of Operators"
    "swap axioms of operator - release operator",
  entry "swap-release-branch-2" "Release-Branch Distribution 2" "axiom" "operators"
    "Distribute Release operator into self-comparison branch"
    ",i \\Os, \\Blb\x7bj \\Oe j\x7d\x7b,\x7d\x7b,\x7d"
    ", \\Blb\x7bj \\Oe j\x7d\x7b,i \\Os,\x7d\x7b,i \\Os,\x7d" "Axioms of Operators"
    "swap axioms of operator - release operator",
  entry "error-code" "Error Code" "axiom" "logic" "Error produces code termination" ",\\Or,"
    ",\\Or, \\Tc code," "Axioms of Operators" "fundamental axioms of logic error operator",
  entry "error-next" "Error Absorbs Next" "axiom" "logic" "Error absorbs Next Node operator"
    ",i \\On, \\Or," ",\\Or," "Axioms of Operators" "fundamental axioms of logic error operator",
  entry "error-release" "Error Absorbs Release" "axiom" "logic" "Error absorbs Release operator"
    ",i \\Os, \\Or," ",\\Or," "Axioms of Operators" "fundamental axioms of logic error operator",
  entry "error-assign" "Error Absorbs Assign" "axiom" "logic" "Error absorbs Assign operator"
    ",i \\Oa j, \\Or," ",\\Or," "Axioms of Operators" "fundamental axioms of logic error operator",
  entry "equiv-code-dist" "Code Distribution" "axiom" "logic" "Distribute code into branch"
    ",\\Brs\x7b,\x7d\x7b,\x7d ,\\Tc c," ", \\Brs\x7b,\\Tc c,\x7d\x7b,\\Tc c,\x7d,"
    "Axioms of Operators" "fundamental axioms of equivalent comparison operator",
  entry "equiv-self" "Self-Equivalence" "axiom" "logic" "Self-comparison always fails (error)"
    ", \\Blb\x7bi \\Oe i\x7d\x7b,\x7d\x7b,\x7d," ", \\Blb\x7bi \\Oe i\x7d\x7b,\x7d\x7b, \\Or,\x7d,"
    "Axioms of Operators" "fundamental axioms of equivalent comparison operator",
  entry "equiv-symmetric" "Equivalence Symmetry" "axiom" "logic"
    "Equivalence comparison is symmetric" ", \\Blb\x7bi \\Oe j\x7d\x7b,\x7d\x7b,\x7d,"
    ", \\Blb\x7bj \\Oe i\x7d\x7b,\x7d\x7b,\x7d," "Axioms of Operators"
    "fundamental axioms of equivalent comparison operator",
  entry "equiv-nest-left" "Equivalence Nest Left" "axiom" "logic" "Nest equivalence on left branch"
    ", \\Bb\x7bi \\Oe j\x7d\x7b,\\Tc c_1,\x7d\x7b,\\Tc c_2,\x7d,"
    ", \\Bb\x7bi \\Oe j\x7d\x7b, \\Bb\x7bi \\Oe j\x7d\x7b,\\Tc c_1,\x7d\x7b,\\Tc c_3,\x7d,\x7d\x7b,\\Tc c_2,\x7d ,"
    "Axioms of Operators" "fundamental axioms of equivalent comparison operator",
  entry "equiv-nest-right" "Equivalence Nest Right" "axiom" "logic"
    "Nest equivalence on right branch"
    ", \\Bb\x7bi \\Oe j\x7d\x7b,\\Tc c_1,\x7d\x7b,\\Tc c_2,\x7d,"
    ", \\Bb\x7bi \\Oe j\x7d\x7b, \\Tc c_1,\x7d\x7b,\\Bb\x7bi \\Oe j\x7d\x7b,\\Tc c_3,\x7d\x7b,\\Tc c_2,\x7d,\x7d ,"
    "Axioms of Operators" "fundamental axioms of equivalent comparison operator",
  entry "equiv-subst" "Equivalence Substitution" "axiom" "logic"
    "Substitute equivalent values in nested comparison"
    ", \\Blb\x7bi \\Oe j\x7d\x7b,\\Blb\x7bi \\Oe m\x7d\x7b,\x7d\x7b,\x7d\x7d\x7b,\x7d,"
    ", \\Blb\x7bi \\Oe j\x7d\x7b, \\Blb\x7bj \\Oe m\x7d\x7b,\x7d\x7b,\x7d\x7d\x7b,\x7d,"
    "Axioms of Operators" "fundamental axioms of equivalent comparison operator",
  entry "equiv-swap-nested" "Equivalence Swap Nested" "axiom" "logic"
    "Swap nested equivalence comparisons"
    ", \\Bb\x7bi \\Oe j\x7d\x7b,\\Bb\x7bm \\Oe n\x7d\x7b,\\Tc c_1,\x7d\x7b,\\Tc c_2,\x7d,\x7d\x7b, \\Bb\x7bm \\Oe n\x7d\x7b,\\Tc c_3,\x7d\x7b,\\Tc c_4,\x7d,\x7d,"
    ", \\Bb\x7bm \\Oe n\x7d\x7b,\\Bb\x7bi \\Oe j\x7d\x7b,\\Tc c_1,\x7d\x7b,\\Tc c_3,\x7d,\x7d\x7b, \\Bb\x7bi \\Oe j\x7d\x7b,\\Tc c_2,\x7d\x7b,\\Tc c_4,\x7d,\x7d,"
    "Axioms of Operators" "fundamental axioms of equivalent comparison operator",
  entry "release-next" "Release After Next" "axiom" "operators"
    "Next followed by Release simplifies to Release" ",i \\On, i \\Os," ",i \\Os,"
    "Axioms of Operators" "fundamental axioms of release operator",
  entry "create-branch" "Create Branch" "axiom" "operators" "Create empty branch comparison" ","
    ", \\Bs\x7bi \\Oe j\x7d\x7b,\x7d\x7b,\x7d ," "Axioms of Operators" "axioms of creativity",
  entry "create-copy" "Create Copy" "axiom" "operators" "Create Copy operator with Release" ","
    ",i \\Oc m, m \\Os," "Axioms of Operators" "axioms of creativity",
  entry "create-id" "Create ID" "axiom" "operators" "Create ID operator with Release" ","
    ",i \\Od m, m \\Os," "Axioms of Operators" "axioms of creativity",
  entry "create-subnode" "Create Subnode" "axiom" "operators"
    "Create Subnode operator with Release" "," ",i \\Ob m, m \\Os," "Axioms of Operators"
    "axioms of creativity",
  entry "create-global" "Create Global Space" "axiom" "operators"
    "Create Global Space operator with Release" "," ",\\Og m, m \\Os," "Axioms of Operators"
    "axioms of creativity",
  entry "create-temp" "Create Temp Space" "axiom" "operators"
    "Create Temporary Space operator with Release" "," ",\\Ot m, m \\Os," "Axioms of Operators"
    "axioms of creativity",
  entry "create-next-prev" "Create Next-Prev Pair" "axiom" "operators"
    "Create Next and Previous operators" "," ",i \\On, i \\Op," "Axioms of Operators"
    "axioms of creativity",
  entry "create-empty" "Create Empty" "axiom" "operators" "Empty creation (identity)" "," ", ,"
    "Axioms of Operators" "axioms of creativity"]

end Rule
end OperatorCalculus
