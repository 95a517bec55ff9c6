import OperatorCalculus.Json.Display
import OperatorCalculus.Json.Writer
import OperatorCalculus.Rule.Basic

-- A record is a rule as a file holds it: the seven required members may be any
-- values, only the type is checked. A record is a rule when its members are texts.
namespace OperatorCalculus

namespace Member

def id : Text := "id".toList
def name : Text := "name".toList
def type : Text := "type".toList
def category : Text := "category".toList
def description : Text := "description".toList
def left : Text := "leftSide".toList
def right : Text := "rightSide".toList
def sectionTitle : Text := "section".toList
def subsectionTitle : Text := "subsection".toList

def required : List Text := [id, name, type, category, description, left, right]

end Member

structure Record where
  id : Json
  name : Json
  type : Text
  category : Json
  description : Json
  left : Json
  right : Json
  sectionTitle : Option Json
  subsectionTitle : Option Json

-- Values that hold no members at all, and values that hold something but not under
-- names, are different mistakes from a record that lacks a member.
inductive RecordFault where
  | missing (id : Option Json) (names : List Text)
  | unknownType (id type : Json)
  | memberless
  | unnamed

namespace RecordFault

def message : RecordFault → Text
  | .missing id names =>
    "rule ".toList ++ (match id with
      | some v => Json.inspect v
      | none => Text.quoted ['?']) ++
      " is missing ".toList ++ Text.join [',', ' '] names
  | .unknownType id type =>
    "rule ".toList ++ Json.inspect id ++ " has unknown type ".toList ++ Json.inspect type
  | .memberless => "the record holds no members".toList
  | .unnamed => "the record holds its members under no names".toList

end RecordFault

namespace Json

def isText (t : Text) : Json → Bool
  | .str s => s == t
  | _ => false

def text? : Json → Option Text
  | .str s => some s
  | _ => none

def stretches? : Json → Option (List Text)
  | .str s => some [s]
  | .torn units => some (Spelling.stretches units)
  | _ => none

end Json

namespace Record

def optional (key : Text) (members : List (Spelling × Json)) : Option Json :=
  match Json.member? key members with
  | some v => if v.isHollow then none else some v
  | none => none

def ofMembers (members : List (Spelling × Json)) : Except RecordFault Record :=
  let get := fun key => (Json.member? key members).getD .null
  let absent := Member.required.filter fun key => (Json.member? key members).isNone
  if absent.isEmpty then
    match get Member.type with
    | .str t =>
      if Rule.types.contains t then
        .ok ⟨get Member.id, get Member.name, t, get Member.category, get Member.description,
          get Member.left, get Member.right,
          optional Member.sectionTitle members, optional Member.subsectionTitle members⟩
      else .error (.unknownType (get Member.id) (.str t))
    | v => .error (.unknownType (get Member.id) v)
  else .error (.missing (Json.member? Member.id members) absent)

-- A value that is no object is searched for the names all the same: a text for its
-- parts, a list for its items. Only when a name is missing does it matter that the
-- value cannot say which rule it is.
def ofStretches (texts : List Text) : Except RecordFault Record :=
  if Member.required.all fun key => texts.any (Text.contains key) then .error .memberless
  else .error .unnamed

def ofJson : Json → Except RecordFault Record
  | .obj members => ofMembers members
  | .str t => ofStretches [t]
  | .torn units => ofStretches (Spelling.stretches units)
  | .arr items =>
    if Member.required.all fun key => items.any (Json.isText key) then .error .memberless
    else .error .unnamed
  | _ => .error .memberless

def toMembers (r : Record) : List (Text × Json) :=
  [(Member.id, r.id), (Member.name, r.name), (Member.type, .str r.type),
    (Member.category, r.category), (Member.description, r.description),
    (Member.left, r.left), (Member.right, r.right)] ++
  (match r.sectionTitle with
    | some v => if v.isHollow then [] else [(Member.sectionTitle, v)]
    | none => []) ++
  (match r.subsectionTitle with
    | some v => if v.isHollow then [] else [(Member.subsectionTitle, v)]
    | none => [])

def toJson (r : Record) : Json := .obj (Json.named r.toMembers)

def describe (r : Record) : Spelling :=
  Spelling.ofText "Rule(".toList ++ r.id.display ++ Spelling.ofText ": ".toList ++ r.left.display ++
    Spelling.ofText " <=> ".toList ++ r.right.display ++ [.char ')']

def optionalText? : Option Json → Option (Option Text)
  | none => some none
  | some v => v.text?.map some

def toRule? (r : Record) : Option Rule := do
  let id ← r.id.text?
  let name ← r.name.text?
  let category ← r.category.text?
  let description ← r.description.text?
  let left ← r.left.text?
  let right ← r.right.text?
  let sectionTitle ← optionalText? r.sectionTitle
  let subsectionTitle ← optionalText? r.subsectionTitle
  some ⟨id, name, r.type, category, description, left, right, sectionTitle, subsectionTitle⟩

-- A search reads the two sides as expressions; everything else it only shows.
def hasSides (r : Record) : Bool := r.left.stretches?.isSome && r.right.stretches?.isSome

def shownTitle? : Option Json → Option (Option Text)
  | none => some none
  | some v => (Spelling.text? v.display).map some

-- The rule as a search shows it, when all that is shown are texts.
def shown? (r : Record) : Option Rule := do
  let id ← Spelling.text? r.id.display
  let name ← Spelling.text? r.name.display
  let category ← Spelling.text? r.category.display
  let description ← Spelling.text? r.description.display
  let left ← r.left.text?
  let right ← r.right.text?
  let sectionTitle ← shownTitle? r.sectionTitle
  let subsectionTitle ← shownTitle? r.subsectionTitle
  some ⟨id, name, r.type, category, description, left, right, sectionTitle, subsectionTitle⟩

end Record

namespace Rule

def toRecord (r : Rule) : Record :=
  ⟨.str r.id, .str r.name, r.type, .str r.category, .str r.description, .str r.left, .str r.right,
    r.sectionTitle.map .str, r.subsectionTitle.map .str⟩

def toJson (r : Rule) : Json := r.toRecord.toJson

theorem toRule?_toRecord (r : Rule) : r.toRecord.toRule? = some r := by
  obtain ⟨id, name, type, category, description, left, right, s, u⟩ := r
  cases s <;> cases u <;> rfl

end Rule
end OperatorCalculus
