import OperatorCalculus.Expression.Canonical

namespace OperatorCalculus

inductive Part where
  | gap (text : Text)
  | operand (kind : Kind) (value : Text)
deriving DecidableEq

abbrev Reading := List Part

namespace Part

def text : Part → Text
  | .gap t => t
  | .operand _ v => v

def rename (image : Text → Text) : Part → Part
  | .gap t => .gap t
  | .operand k v => .operand k (image v)

-- A gap that may be empty; an empty one is no part at all.
def lead (w : Text) (ps : Reading) : Reading := if w.isEmpty then ps else .gap w :: ps

end Part

namespace Reading

def text (ps : Reading) : Text := ps.flatMap Part.text

def tokens (position : Nat) : Reading → List Token
  | [] => []
  | .gap t :: rest => tokens (position + t.length) rest
  | .operand k v :: rest => ⟨v, position, k⟩ :: tokens (position + v.length) rest

def values : Reading → List Text
  | [] => []
  | .gap _ :: rest => values rest
  | .operand _ v :: rest => v :: values rest

def rename (image : Text → Text) (ps : Reading) : Reading := ps.map (Part.rename image)

variable {ps qs rest : Reading} {image : Text → Text}

@[simp] theorem text_nil : text [] = [] := rfl

@[simp] theorem text_cons (p : Part) (rest : Reading) : text (p :: rest) = p.text ++ text rest := rfl

@[simp] theorem text_append (ps qs : Reading) : text (ps ++ qs) = text ps ++ text qs :=
  List.flatMap_append

@[simp] theorem text_lead (w : Text) (ps : Reading) : text (Part.lead w ps) = w ++ text ps := by
  cases w <;> rfl

@[simp] theorem rename_nil (image : Text → Text) : rename image [] = [] := rfl

@[simp] theorem rename_cons (image : Text → Text) (p : Part) (rest : Reading) :
    rename image (p :: rest) = p.rename image :: rename image rest := rfl

@[simp] theorem rename_append (image : Text → Text) (ps qs : Reading) :
    rename image (ps ++ qs) = rename image ps ++ rename image qs :=
  List.map_append

@[simp] theorem rename_lead (image : Text → Text) (w : Text) (ps : Reading) :
    rename image (Part.lead w ps) = Part.lead w (rename image ps) := by
  cases w <;> rfl

@[simp] theorem tokens_lead (position : Nat) (w : Text) (ps : Reading) :
    tokens position (Part.lead w ps) = tokens (position + w.length) ps := by
  cases w <;> rfl

@[simp] theorem values_lead (w : Text) (ps : Reading) : values (Part.lead w ps) = values ps := by
  cases w <;> rfl

theorem values_append (ps qs : Reading) : values (ps ++ qs) = values ps ++ values qs := by
  induction ps with
  | nil => rfl
  | cons p rest ih => cases p <;> simp [values, ih]

theorem mem_values {v : Text} : v ∈ values ps ↔ ∃ k, Part.operand k v ∈ ps := by
  induction ps with
  | nil => simp [values]
  | cons p rest ih => cases p <;> simp [values, ih, exists_or]

theorem mem_values_later {p : Part} {v : Text} (member : v ∈ values rest) :
    v ∈ values (p :: rest) := by
  cases p <;> simp [values, member]

theorem values_rename : values (rename image ps) = (values ps).map image := by
  induction ps with
  | nil => rfl
  | cons p rest ih => cases p <;> simp [values, Part.rename, ih]

theorem map_value_tokens (position : Nat) (ps : Reading) :
    (tokens position ps).map Span.value = values ps := by
  induction ps generalizing position with
  | nil => rfl
  | cons p rest ih => cases p <;> simp [tokens, values, ih]

theorem rename_congr {other : Text → Text} (same : ∀ v ∈ values ps, image v = other v) :
    rename image ps = rename other ps := by
  refine List.map_congr_left fun p member => ?_
  cases p with
  | gap t => rfl
  | operand k v => rw [Part.rename, Part.rename, same v (mem_values.2 ⟨k, member⟩)]

theorem rename_rename (second first : Text → Text) (ps : Reading) :
    rename second (rename first ps) = rename (second ∘ first) ps := by
  rw [rename, rename, List.map_map]
  refine List.map_congr_left fun p _ => ?_
  cases p <;> rfl

theorem rename_id (ps : Reading) : rename id ps = ps := by
  refine (List.map_congr_left fun p _ => ?_).trans (List.map_id ps)
  cases p <;> rfl

theorem tokens_append (position : Nat) (ps qs : Reading) :
    tokens position (ps ++ qs) = tokens position ps ++ tokens (position + (text ps).length) qs := by
  induction ps generalizing position with
  | nil => rfl
  | cons p rest ih =>
    cases p with
    | gap t => simp [tokens, ih, Part.text, Nat.add_assoc]
    | operand k v => simp [tokens, ih, Part.text, Nat.add_assoc]

theorem mem_tokens {position : Nat} {t : Token} : t ∈ tokens position ps ↔
    ∃ before after, ps = before ++ .operand t.kind t.value :: after ∧
      t.index = position + (text before).length := by
  induction ps generalizing position with
  | nil => simp [tokens]
  | cons p rest ih =>
    constructor
    · intro member
      cases p with
      | gap u =>
        obtain ⟨before, after, same, place⟩ := ih.1 member
        exact ⟨.gap u :: before, after, by simp [same], by simp [place, Part.text]; omega⟩
      | operand k v =>
        rcases List.mem_cons.1 member with rfl | later
        · exact ⟨[], rest, rfl, rfl⟩
        · obtain ⟨before, after, same, place⟩ := ih.1 later
          exact ⟨.operand k v :: before, after, by simp [same], by simp [place, Part.text]; omega⟩
    · intro found
      obtain ⟨before, after, same, place⟩ := found
      cases before with
      | nil =>
        simp only [List.nil_append, List.cons.injEq] at same
        obtain ⟨rfl, rfl⟩ := same
        have first : t = ⟨t.value, position, t.kind⟩ := by
          cases t
          simpa using place
        rw [first]
        exact List.mem_cons_self
      | cons q before =>
        simp only [List.cons_append, List.cons.injEq] at same
        obtain ⟨rfl, rfl⟩ := same
        simp only [text_cons, List.length_append] at place
        cases p with
        | gap u => exact ih.2 ⟨before, after, rfl, by simp only [Part.text] at place; omega⟩
        | operand k v =>
          exact List.mem_cons_of_mem _
            (ih.2 ⟨before, after, rfl, by simp only [Part.text] at place; omega⟩)

theorem position_le {position : Nat} {t : Token} (member : t ∈ tokens position ps) :
    position ≤ t.index := by
  obtain ⟨_, _, _, place⟩ := mem_tokens.1 member
  omega

theorem stop_le {position : Nat} {t : Token} (member : t ∈ tokens position ps) :
    t.stop ≤ position + (text ps).length := by
  obtain ⟨before, after, rfl, place⟩ := mem_tokens.1 member
  simp only [Span.stop, place, text_append, text_cons, Part.text, List.length_append]
  omega

theorem tokens_ordered (position : Nat) (ps : Reading) :
    (tokens position ps).Pairwise fun a b => a.stop ≤ b.index := by
  induction ps generalizing position with
  | nil => exact List.Pairwise.nil
  | cons p rest ih =>
    cases p with
    | gap u => exact ih _
    | operand k v => exact List.Pairwise.cons (fun t later => position_le later) (ih _)

theorem replaceAll_tokens (replaced : Kind → Bool) (chosen : Text → Text) (front : Text)
    (agrees : ∀ k v, Part.operand k v ∈ ps → image v = if replaced k then chosen v else v) :
    Expression.replaceAll chosen
        ((tokens front.length ps).filter fun t => replaced t.kind) (front ++ text ps) =
      front ++ text (rename image ps) := by
  induction ps generalizing front with
  | nil => rfl
  | cons p rest ih =>
    have later := ih (front ++ p.text) fun k v member => agrees k v (List.mem_cons_of_mem _ member)
    rw [List.length_append] at later
    cases p with
    | gap u =>
      simp only [Part.text] at later
      simpa [tokens, Part.text, Part.rename] using later
    | operand k v =>
      simp only [Part.text] at later
      have own := agrees k v (by simp)
      cases hit : replaced k with
      | false =>
        rw [hit] at own
        simpa [tokens, hit, own, Part.text, Part.rename] using later
      | true =>
        rw [hit] at own
        simp only [tokens, List.filter_cons, hit, if_true, Expression.replaceAll_cons, text_cons,
          Part.text, ← List.append_assoc, later, rename_cons, Part.rename]
        simp [Expression.replaceSpan, Span.stop, own]

end Reading
end OperatorCalculus
