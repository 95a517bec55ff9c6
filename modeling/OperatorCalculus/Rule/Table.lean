namespace OperatorCalculus

namespace Table

def update {κ β : Type} [BEq κ] (key : κ) (change : Option β → β) : List (κ × β) → List (κ × β)
  | [] => [(key, change none)]
  | (k, v) :: rest =>
    if k == key then (k, change (some v)) :: rest else (k, v) :: update key change rest

def get? {κ β : Type} [BEq κ] (key : κ) : List (κ × β) → Option β
  | [] => none
  | (k, v) :: rest => if k == key then some v else get? key rest

def keys {κ β : Type} (table : List (κ × β)) : List κ := table.map (·.1)

theorem get?_update_self {κ β : Type} [BEq κ] [LawfulBEq κ] (key : κ) (change : Option β → β)
    (table : List (κ × β)) : get? key (update key change table) = some (change (get? key table)) := by
  induction table with
  | nil => simp [update, get?]
  | cons e rest ih => by_cases h : e.1 = key <;> simp [update, get?, h, ih]

theorem get?_update_ne {κ β : Type} [BEq κ] [LawfulBEq κ] {key other : κ} (ne : key ≠ other)
    (change : Option β → β) (table : List (κ × β)) :
    get? other (update key change table) = get? other table := by
  induction table with
  | nil => simp [update, get?, ne]
  | cons e rest ih =>
    by_cases h : e.1 = key
    · simp [update, get?, h, ne]
    · simp [update, get?, h, ih]

end Table
end OperatorCalculus
