import OperatorCalculus.Rule.Shipped.Entry

namespace OperatorCalculus
namespace Rule

def relationshipRules : List Rule := [
  entry "def-value-comp-same" "Value Comparison (same node)" "definition" "relationships"
    "Definition of value comparison for same node" ", \\Blb\x7bi \\Pe i\x7d\x7b,\x7d\x7b,\x7d"
    ", \\Blb\x7bi \\Oe i\x7d\x7b,\x7d\x7b,\x7d" "Definition of Relationships"
    "Definition of node value comparison",
  entry "def-value-comp-prop-same" "Value Comparison Proposition (same)" "definition"
    "propositions" "Proposition form for same node value comparison" ",i \\Pe i,"
    ",\\Bb\x7bi \\Pe i\x7d\x7b,\x7d\x7b,\\Or,\x7d," "Definition of Relationships"
    "Definition of node value comparison",
  entry "def-value-comp-diff" "Value Comparison (different nodes)" "definition" "relationships"
    "Definition of value comparison for different nodes"
    ", \\Blb\x7bi \\Pe j\x7d\x7b,\x7d\x7b,\x7d" ", \\Blb\x7bi \\Oe j\x7d\x7b,\x7d\x7b,\x7d"
    "Definition of Relationships" "Definition of node value comparison",
  entry "def-value-comp-prop" "Value Comparison Proposition" "definition" "propositions"
    "Proposition form for value comparison" ",i \\Pe j,"
    ",\\Bb\x7bi \\Pe j\x7d\x7b,\x7d\x7b,\\Or,\x7d," "Definition of Relationships"
    "Definition of node value comparison",
  entry "def-value-comp-neg" "Negative Value Comparison" "definition" "propositions"
    "Negated value comparison proposition" ",i \\nPe j,"
    ",\\Bb\x7bi \\Pe j\x7d\x7b,\\Or,\x7d\x7b,\x7d," "Definition of Relationships"
    "Definition of node value comparison",
  entry "def-null-comp" "Null Comparison" "definition" "relationships"
    "Definition of null comparison" ", \\Blb\x7bi \\Pu \x7d\x7b,\x7d\x7b,\x7d"
    ", \\Ot j, \\Blb\x7bi \\Pe j\x7d\x7b,j \\Os,\x7d\x7b,j \\Os,\x7d" "Definition of Relationships"
    "Definition of node null comparison",
  entry "def-null-prop" "Null Proposition" "definition" "propositions"
    "Proposition form for null comparison" ",i \\Pu," ",\\Bb\x7bi \\Pu\x7d\x7b,\x7d\x7b,\\Or,\x7d,"
    "Definition of Relationships" "Definition of node null comparison",
  entry "def-null-neg" "Negative Null Comparison" "definition" "propositions"
    "Negated null comparison proposition" ",i \\nPu," ",\\Bb\x7bi \\Pu\x7d\x7b,\\Or,\x7d\x7b,\x7d,"
    "Definition of Relationships" "Definition of node null comparison",
  entry "def-identical-comp" "Identical Node Comparison" "definition" "relationships"
    "Definition of identical node comparison" ", \\Blb\x7bi \\Ps j\x7d\x7b,\x7d\x7b,\x7d"
    ",i \\Od m, j \\Od n, \\Blb\x7bm \\Pe n\x7d\x7b,m \\Os, n \\Os,\x7d\x7b,m \\Os, n \\Os,\x7d"
    "Definition of Relationships" "Definition of identical node comparison",
  entry "def-identical-prop" "Identical Proposition" "definition" "propositions"
    "Proposition form for identical comparison" ",i \\Ps j,"
    ",\\Bb\x7bi \\Ps j\x7d\x7b,\x7d\x7b,\\Or,\x7d," "Definition of Relationships"
    "Definition of identical node comparison",
  entry "def-identical-neg" "Negative Identical Comparison" "definition" "propositions"
    "Negated identical comparison proposition" ",i \\nPs j,"
    ",\\Bb\x7bi \\Ps j\x7d\x7b,\\Or,\x7d\x7b,\x7d," "Definition of Relationships"
    "Definition of identical node comparison",
  entry "subst-identical-id" "Identical Substitution (ID)" "axiom" "relationships"
    "Substitute identical nodes in ID operator" ",i \\Ps j, i \\Od t," ", i \\Ps j, j \\Od t,"
    "Axioms of Relationships" "Substitution axioms of identical node comparison",
  entry "subst-identical-copy" "Identical Substitution (Copy)" "axiom" "relationships"
    "Substitute identical nodes in Copy operator" ",i \\Ps j, i \\Oc t," ", i \\Ps j, j \\Oc t,"
    "Axioms of Relationships" "Substitution axioms of identical node comparison",
  entry "subst-identical-subnode" "Identical Substitution (Subnode)" "axiom" "relationships"
    "Substitute identical nodes in Subnode operator" ",i \\Ps j, i \\Ob t," ", i \\Ps j, j \\Ob t,"
    "Axioms of Relationships" "Substitution axioms of identical node comparison",
  entry "subst-identical-value" "Identical Substitution (Value)" "axiom" "relationships"
    "Substitute identical nodes in value comparison"
    ",i \\Ps j, \\Blb\x7bi \\Pe j\x7d\x7b,\x7d\x7b,\x7d"
    ", i \\Ps j, \\Blb\x7bi \\Pe i\x7d\x7b,\x7d\x7b,\x7d" "Axioms of Relationships"
    "Substitution axioms of identical node comparison",
  entry "id-not-null" "ID Implies Not Null" "axiom" "relationships"
    "ID operator implies target is not null" ", i \\Od m," ", i \\Od m, m \\nPu,"
    "Axioms of Relationships" "Axioms of node id operator and propositions",
  entry "id-value-equal" "ID Value Equality" "axiom" "relationships"
    "Two IDs on same node have equal values" ", i \\Od m, i \\Od n,"
    ", i \\Od m, i \\Od n, m \\Pe n," "Axioms of Relationships"
    "Axioms of node id operator and propositions",
  entry "copy-identical" "Copy Implies Identical" "axiom" "relationships"
    "Copy operator implies identical nodes" ", i \\Oc j," ", i \\Oc j, i \\Ps j,"
    "Axioms of Relationships" "Axioms of copy operator and propositions",
  entry "subnode-null-copy" "Subnode on Null Becomes Copy" "axiom" "relationships"
    "Subnode on null node becomes Copy" ",i \\Pu, i \\Ob t," ", i \\Pu, i \\Oc t,"
    "Axioms of Relationships" "Axioms of subnode operator and propositions",
  entry "subnode-target-null" "Subnode Target is Null" "axiom" "relationships"
    "Subnode target is initially null" ", i \\Ob t," ", i \\Ob t, t \\Pu,"
    "Axioms of Relationships" "Axioms of subnode operator and propositions",
  entry "subnode-identical-dist" "Subnode Identical Distribution" "axiom" "relationships"
    "Distribute identical comparison through subnodes"
    ",i_1 \\nPu, i_2 \\nPu, i_1 \\Ob t_1, i_2 \\Ob t_2, \\Bls\x7bi_1 \\Ps i_2\x7d\x7b,\x7d\x7b,\x7d"
    ",i_1 \\nPu, i_2 \\nPu, i_1 \\Ob t_1, i_2 \\Ob t_2, \\Bls\x7bt_1 \\Ps t_2\x7d\x7b,\x7d\x7b,\x7d"
    "Axioms of Relationships" "Axioms of subnode operator and propositions",
  entry "global-copy" "Global Space Copy" "axiom" "relationships"
    "Two global space operators imply Copy" ",\\Og i, \\Og j," ", \\Og i, i \\Oc j,"
    "Axioms of Relationships" "Axioms of global space operator and propositions",
  entry "global-null" "Global Space is Null" "axiom" "relationships"
    "Global space node is initially null" ", \\Og i," ", \\Og i, i \\Pu," "Axioms of Relationships"
    "Axioms of global space operator and propositions",
  entry "temp-value-equal" "Temp Space Value Equality" "axiom" "relationships"
    "Two temp space operators have equal values" ", \\Ot i, \\Ot j," ", \\Ot i, \\Ot j, i \\Pe j,"
    "Axioms of Relationships" "Axioms of temporary space operator and propositions",
  entry "temp-next-null" "Temp Space Next is Null" "axiom" "relationships"
    "Temp space with next is null" ", \\Ot i, i \\On," ", \\Ot i, i \\On, i \\Pu,"
    "Axioms of Relationships" "Axioms of temporary space operator and propositions",
  entry "temp-not-identical" "Temp Space Not Identical" "axiom" "relationships"
    "Temp space node is not identical to others" ",\\Ot i," ", \\Ot i, i \\nPs j,"
    "Axioms of Relationships" "Axioms of temporary space operator and propositions",
  entry "next-identical-dist" "Next Identical Distribution" "axiom" "relationships"
    "Distribute identical comparison through next operators"
    ",i \\On, j \\On, \\Blb\x7bi \\Ps j\x7d\x7b,\x7d\x7b,\x7d"
    ", \\Blb\x7bi \\Ps j\x7d\x7b,i \\On, j \\On,\x7d\x7b,i \\On, j \\On,\x7d"
    "Axioms of Relationships" "Axioms of next node operator and propositions"]

end Rule
end OperatorCalculus
