import OperatorCalculus.Rule.Shipped.Operators
import OperatorCalculus.Rule.Shipped.Relationships
import OperatorCalculus.Rule.Shipped.Functions
import OperatorCalculus.Rule.Shipped.Theorems

namespace OperatorCalculus
namespace Rule

def shipped : List Rule := operatorRules ++ relationshipRules ++ functionRules ++ theoremRules

end Rule
end OperatorCalculus
