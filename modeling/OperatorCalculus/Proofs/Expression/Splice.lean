import OperatorCalculus.Proofs.Expression.Instance

namespace OperatorCalculus

namespace Expression

-- What stands before, between and behind the spans: one gap more than spans.
def gaps {κ : Type} (e : Text) (cursor : Nat) : List (Span κ) → List Text
  | [] => [e.drop cursor]
  | s :: rest => (e.drop cursor).take (s.index - cursor) :: gaps e s.stop rest

def splice : List Text → List Text → Text
  | [], _ => []
  | gap :: _, [] => gap
  | gap :: later, v :: vs => gap ++ v ++ splice later vs

def respell (image : Text → Text) (e : Text) : Text :=
  splice (gaps e 0 (Operand.extract e)) ((operands e).map image)

end Expression

namespace Reading

open Expression

variable {ps : Reading}

def between (pending : Text) : Reading → List Text
  | [] => [pending]
  | .gap t :: rest => between (pending ++ t) rest
  | .operand _ _ :: rest => pending :: between [] rest

theorem gaps_tokens (front pending : Text) (ps : Reading) :
    gaps (front ++ pending ++ text ps) front.length (tokens (front ++ pending).length ps) =
      between pending ps := by
  induction ps generalizing front pending with
  | nil => simp [tokens, gaps, between]
  | cons p rest ih =>
    cases p with
    | gap t =>
      have later := ih front (pending ++ t)
      simpa only [text_cons, Part.text, tokens, between, List.append_assoc, List.length_append,
        Nat.add_assoc] using later
    | operand k v =>
      have later := ih (front ++ pending ++ v) []
      have reached : (front ++ pending).length + v.length = (front ++ pending ++ v).length := by
        rw [← List.length_append]
      have gathered : ((front ++ pending ++ (v ++ text rest)).drop front.length).take
          ((front ++ pending).length - front.length) = pending := by
        rw [List.append_assoc, List.drop_left, List.length_append, Nat.add_sub_cancel_left,
          List.take_left]
      simp only [List.append_nil] at later
      simp only [text_cons, Part.text, tokens, gaps, Span.stop, gathered, between, reached]
      rw [← List.append_assoc (front ++ pending), later]

theorem splice_between (image : Text → Text) (pending : Text) (ps : Reading) :
    splice (between pending ps) ((values ps).map image) = pending ++ text (rename image ps) := by
  induction ps generalizing pending with
  | nil => simp [between, values, splice]
  | cons p rest ih => cases p <;> simp [between, values, splice, ih, Part.rename, Part.text]

theorem gaps_text (reads : Reads false ps) :
    gaps (text ps) 0 (Operand.extract (text ps)) = between [] ps := by
  rw [reads.extract_text]
  exact gaps_tokens [] [] ps

theorem respell_text (reads : Reads false ps) (image : Text → Text) :
    respell image (text ps) = text (rename image ps) := by
  rw [respell, operands_text reads, gaps_text reads]
  exact splice_between image [] ps

end Reading

namespace Expression

open Reading

theorem replaceAll_eq_respell (image : Text → Text) (e : Text) :
    replaceAll image (Operand.extract e) e = respell image e := by
  obtain ⟨ps, reads, rfl⟩ := Reads.exists_of_text e false
  rw [respell_text reads, reads.extract_text, replaceAll_text]

theorem respell_id (e : Text) : respell id e = e := by
  obtain ⟨ps, reads, rfl⟩ := Reads.exists_of_text e false
  rw [respell_text reads, rename_id]

end Expression
end OperatorCalculus
