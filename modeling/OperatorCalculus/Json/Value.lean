import OperatorCalculus.Decimal.Shortest
import OperatorCalculus.Text.Spelling

-- Structured values as rule files hold them. An object keeps its members in the
-- order in which their names first appeared; a name written again keeps its place
-- and takes the later value.
namespace OperatorCalculus

-- A torn string holds halves that stand alone. No file can hold it.
inductive Json where
  | null
  | bool (value : Bool)
  | int (value : Int)
  | real (value : Float)
  | str (value : Text)
  | torn (units : Spelling)
  | arr (items : List Json)
  | obj (members : List (Spelling × Json))

namespace Json

def ofSpelling (units : Spelling) : Json :=
  match Spelling.text? units with
  | some t => .str t
  | none => .torn units

mutual
def holdsTorn : Json → Bool
  | .torn _ => true
  | .arr items => itemsHoldTorn items
  | .obj members => membersHoldTorn members
  | _ => false

def itemsHoldTorn : List Json → Bool
  | [] => false
  | v :: more => holdsTorn v || itemsHoldTorn more

def membersHoldTorn : List (Spelling × Json) → Bool
  | [] => false
  | (k, v) :: more => (Spelling.text? k).isNone || holdsTorn v || membersHoldTorn more
end

def setMember (key : Spelling) (value : Json) : List (Spelling × Json) → List (Spelling × Json)
  | [] => [(key, value)]
  | (k, v) :: rest => if k == key then (k, value) :: rest else (k, v) :: setMember key value rest

def ofMembers (members : List (Spelling × Json)) : List (Spelling × Json) :=
  members.foldl (fun known m => setMember m.1 m.2 known) []

def named (members : List (Text × Json)) : List (Spelling × Json) :=
  members.map fun m => (Spelling.ofText m.1, m.2)

def member? (key : Text) : List (Spelling × Json) → Option Json
  | [] => none
  | (k, v) :: rest => if k == Spelling.ofText key then some v else member? key rest

-- Empty values count as absent where a record leaves a member optional.
def isHollow : Json → Bool
  | .null => true
  | .bool b => !b
  | .int n => n == 0
  | .real x => x == 0.0
  | .str t => t.isEmpty
  | .torn units => units.isEmpty
  | .arr items => items.isEmpty
  | .obj members => members.isEmpty

theorem setMember_of_mem_fresh (key : Spelling) (value : Json) (members : List (Spelling × Json))
    (fresh : ∀ m ∈ members, m.1 ≠ key) : setMember key value members = members ++ [(key, value)] := by
  induction members with
  | nil => rfl
  | cons m rest ih =>
    have head : m.1 ≠ key := fresh m (by simp)
    simp [setMember, head, ih fun x hx => fresh x (by simp [hx])]

end Json
end OperatorCalculus
