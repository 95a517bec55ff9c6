import OperatorCalculus.Report.Normalization
import OperatorCalculus.Rule.RecordListing

namespace OperatorCalculus

namespace Report

def count (counts : List (Text × Nat)) (key : Text) : Text :=
  Text.ofNat ((Table.get? key counts).getD 0)

def countLine (counts : List (Text × Nat)) : Text :=
  "Rules: ".toList ++ count counts Listing.allKey ++ " (axioms ".toList ++
    count counts Rule.axiomType ++ ", definitions ".toList ++ count counts Rule.definitionType ++
    ", theorems ".toList ++ count counts Rule.theoremType ++ [')']

def sidesLine (id left right : Spelling) : Spelling :=
  Spelling.ofText "    ".toList ++ id ++ Spelling.ofText ": ".toList ++ left ++
    Spelling.ofText " <=> ".toList ++ right

def typeLines {α : Type} (row : α → Spelling) (byType : Text × List α) : List Spelling :=
  Spelling.ofText (' ' :: ' ' :: byType.1 ++ [':']) :: byType.2.map row

-- A heading is shown together with the empty line before it, or neither is.
def headingLine (heading : Spelling) : Spelling := .char '\n' :: .char '[' :: heading ++ [.char ']']

def categoryLines {κ α : Type} (heading : κ → Spelling) (row : α → Spelling)
    (group : κ × List (Text × List α)) : List Spelling :=
  headingLine (heading group.1) :: group.2.flatMap (typeLines row)

def listing {κ α : Type} (heading : κ → Spelling) (row : α → Spelling)
    (groups : Listing.Groups κ Text α) (counts : List (Text × Nat)) : List Spelling :=
  [[], ruler, countLine counts].map Spelling.ofText ++ groups.flatMap (categoryLines heading row) ++
    [Spelling.ofText ruler]

def rules (groups : Listing.Groups Text Text Rule) (counts : List (Text × Nat)) : List Spelling :=
  listing Spelling.ofText
    (fun r => sidesLine (Spelling.ofText r.id) (Spelling.ofText r.left) (Spelling.ofText r.right))
    groups counts

def records (groups : Listing.Groups Heading Text Record) (counts : List (Text × Nat)) :
    List Spelling :=
  listing (fun h => h.value.display)
    (fun r => sidesLine r.id.display r.left.display r.right.display) groups counts

end Report
end OperatorCalculus
