import OperatorCalculus.Rule.Basic

namespace OperatorCalculus
namespace Rule

def entry (id name type category description left right sectionTitle subsectionTitle : String) :
    Rule :=
  ⟨id.toList, name.toList, type.toList, category.toList, description.toList, left.toList,
    right.toList, some sectionTitle.toList, some subsectionTitle.toList⟩

end Rule
end OperatorCalculus
