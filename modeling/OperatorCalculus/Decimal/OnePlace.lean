import OperatorCalculus.Decimal.Shortest

namespace OperatorCalculus
namespace Decimal

def onePlace (x : Float) : Text :=
  match Value.ofFloat x with
  | .finite negative m =>
    let tenths := roundRatio (scaled m.mantissa m.exponent 1)
    signed negative (Text.ofNat (tenths / 10) ++ '.' :: Text.ofNat (tenths % 10))
  | .infinite negative => signed negative ['i', 'n', 'f']
  | .undefined => ['n', 'a', 'n']

end Decimal
end OperatorCalculus
