import OperatorCalculus.Text.Basic

namespace OperatorCalculus

abbrev Matcher := Option Char → Text → Option Nat

namespace Scan

-- Skip counts the characters of the last match that are still to be passed.
def run (m : Matcher) (before : Option Char) (position skip : Nat) : Text → List (Nat × Text)
  | [] => []
  | c :: rest =>
    match skip with
    | n + 1 => run m (some c) (position + 1) n rest
    | 0 =>
      match m before (c :: rest) with
      | some (n + 1) =>
        (position, (c :: rest).take (n + 1)) :: run m (some c) (position + 1) n rest
      | _ => run m (some c) (position + 1) 0 rest

def all (m : Matcher) (t : Text) : List (Nat × Text) := run m none 0 0 t

def opensWord (before : Option Char) : Bool :=
  match before with
  | none => true
  | some c => !Text.isWord c

def closesWord (rest : Text) : Bool := opensWord rest.head?

theorem position_le {m : Matcher} {hit : Nat × Text} (t : Text) :
    ∀ {before : Option Char} {position skip : Nat},
      hit ∈ run m before position skip t → position ≤ hit.1 := by
  induction t with
  | nil => intro _ _ _ h; simp [run] at h
  | cons c rest ih =>
    intro before position skip h
    simp only [run] at h
    split at h
    · exact Nat.le_of_succ_le (ih h)
    · split at h
      · rcases List.mem_cons.1 h with rfl | later
        · exact Nat.le_refl _
        · exact Nat.le_of_succ_le (ih later)
      · exact Nat.le_of_succ_le (ih h)

end Scan
end OperatorCalculus
