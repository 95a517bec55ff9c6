import OperatorCalculus.Text.Quoted

-- Strings as escapes can write them. An escape can name half of a surrogate pair, and a
-- half that stands alone is no character: it can be read and compared, but not encoded.
namespace OperatorCalculus

inductive StringUnit where
  | char (c : Char)
  | half (code : Nat)
deriving DecidableEq, Repr

namespace StringUnit

def char? : StringUnit → Option Char
  | .char c => some c
  | .half _ => none

def isHalf (u : StringUnit) : Bool := u.char?.isNone

def escapeFor (mark : Char) : StringUnit → Text
  | .char c => Text.escapeFor mark c
  | .half code => '\\' :: 'u' :: Text.hexDigits 4 code

end StringUnit

abbrev Spelling := List StringUnit

namespace Spelling

def ofText (t : Text) : Spelling := t.map .char

def text? (units : Spelling) : Option Text := units.mapM StringUnit.char?

def quoted (units : Spelling) : Text :=
  let mark := Text.quoteMark (units.filterMap StringUnit.char?)
  mark :: units.flatMap (StringUnit.escapeFor mark) ++ [mark]

-- The texts between the halves. Nothing that is sought in a string reaches over a half.
def stretches : Spelling → List Text
  | [] => [[]]
  | .half _ :: rest => [] :: stretches rest
  | .char c :: rest => (stretches rest).modifyHead (c :: ·)

def encodingFault (units : Spelling) : Text :=
  let start := units.findIdx StringUnit.isHalf
  let halves := (units.drop start).takeWhile StringUnit.isHalf
  let place := match halves with
    | [.half code] => "character '\\u".toList ++ Text.hexDigits 4 code ++
        "' in position ".toList ++ Text.ofNat start
    | _ => "characters in position ".toList ++ Text.ofNat start ++
        '-' :: Text.ofNat (start + halves.length - 1)
  "'utf-8' codec can't encode ".toList ++ place ++ ": surrogates not allowed".toList

end Spelling
end OperatorCalculus
