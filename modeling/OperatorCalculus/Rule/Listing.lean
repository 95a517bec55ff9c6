import OperatorCalculus.Rule.Basic
import OperatorCalculus.Rule.Table
import OperatorCalculus.Text.Lowercase

namespace OperatorCalculus

-- An empty query, type or category asks for nothing.
structure Filter where
  query : Text
  type : Option Text
  category : Option Text

namespace Filter

def demands (wanted : Option Text) : Option Text :=
  match wanted with
  | some [] => none
  | other => other

def agrees (wanted : Option Text) (value : Text) : Bool :=
  match demands wanted with
  | none => true
  | some w => value == w

-- Query and text are lower-cased apart from each other. Since that depends on the
-- neighbouring characters, a text can hold the query and still not be found.
def mentions (query text : Text) : Bool := Text.contains (Text.lower query) (Text.lower text)

def admits (f : Filter) (r : Rule) : Bool :=
  agrees f.type r.type && agrees f.category r.category &&
    (f.query.isEmpty || [r.name, r.description, r.left, r.right].any (mentions f.query))

end Filter

namespace Listing

def search (f : Filter) (rules : List Rule) : List Rule := rules.filter f.admits

abbrev Groups (κ τ α : Type) := List (κ × List (τ × List α))

def place {κ τ α : Type} [BEq κ] [BEq τ] (category : κ) (type : τ) (entry : α)
    (groups : Groups κ τ α) : Groups κ τ α :=
  Table.update category
    (fun types => Table.update type (fun entries => entries.getD [] ++ [entry]) (types.getD []))
    groups

def groupBy {κ τ α : Type} [BEq κ] [BEq τ] (category : α → κ) (type : α → τ)
    (entries : List α) : Groups κ τ α :=
  entries.foldl (fun groups e => place (category e) (type e) e groups) []

def group (rules : List Rule) : Groups Text Text Rule := groupBy Rule.category Rule.type rules

def allKey : Text := "all".toList

-- The known types are counted even when no rule has them, before any other type.
def countTypes (types : List Text) : List (Text × Nat) :=
  types.foldl (fun counts t => Table.update t (fun n => n.getD 0 + 1) counts)
    ((allKey, types.length) :: Rule.types.map fun t => (t, 0))

def counts (rules : List Rule) : List (Text × Nat) := countTypes (rules.map Rule.type)

end Listing
end OperatorCalculus
