import OperatorCalculus.Text.Basic

-- Lines of a proof state no rules. A block reaches from a line with a start marker to
-- the first line from there on with the end marker, both included, or to the end of
-- the text when no end marker follows.
namespace OperatorCalculus

namespace ProofBlock

def startMarkers : List Text := ["proof:\\".toList, "\\begin\x7bmath\x7d".toList]
def endMarker : Text := "\\end\x7bmath\x7d".toList

def opens (line : Text) : Bool := startMarkers.any fun m => Text.contains m line
def closes (line : Text) : Bool := Text.contains endMarker line

def mark (first last : Nat) (flags : List Bool) : List Bool :=
  flags.mapIdx fun i flag => flag || (first ≤ i && i ≤ last)

-- Start is the line of the last start marker while its block is still open.
def flagsFrom (i : Nat) (start : Option Nat) (flags : List Bool) : List Text → List Bool
  | [] => flags
  | line :: rest =>
    match (if opens line then some i else start) with
    | none => flagsFrom (i + 1) none flags rest
    | some first =>
      if closes line then flagsFrom (i + 1) none (mark first i flags) rest
      else flagsFrom (i + 1) (some first) (mark i i flags) rest

def flags (lines : List Text) : List Bool :=
  flagsFrom 0 none (List.replicate lines.length false) lines

theorem length_flagsFrom (lines : List Text) :
    ∀ (i : Nat) (start : Option Nat) (flags : List Bool),
      (flagsFrom i start flags lines).length = flags.length := by
  induction lines with
  | nil => intro i start flags; rfl
  | cons line rest ih =>
    intro i start flags
    simp only [flagsFrom]
    split
    · exact ih _ _ _
    · split <;> simp [ih, mark]

theorem length_flags (lines : List Text) : (flags lines).length = lines.length := by
  simp [flags, length_flagsFrom]

end ProofBlock
end OperatorCalculus
