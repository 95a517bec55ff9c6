import OperatorCalculus.Text.Spelling

namespace OperatorCalculus

namespace Spelling

def Whole (units : Spelling) : Prop := ∃ t, units = ofText t

variable {units a b : Spelling} {s t : Text}

theorem text?_char (c : Char) (rest : Spelling) : text? (.char c :: rest) = (text? rest).map (c :: ·) := by
  rw [text?, text?, List.mapM_cons, StringUnit.char?]
  cases rest.mapM StringUnit.char? <;> rfl

theorem text?_eq_some_iff : text? units = some t ↔ units = ofText t := by
  induction units generalizing t with
  | nil => cases t <;> simp [text?, ofText]
  | cons u rest ih =>
    cases u with
    | half code => cases t <;> simp [text?, ofText, List.mapM_cons, StringUnit.char?]
    | char c =>
      simp only [text?_char, Option.map_eq_some_iff, ih]
      constructor
      · intro found
        obtain ⟨more, rfl, rfl⟩ := found
        rfl
      · intro same
        cases t with
        | nil => cases same
        | cons d more =>
          cases same
          exact ⟨more, rfl, rfl⟩

theorem text?_ofText (t : Text) : text? (ofText t) = some t := text?_eq_some_iff.2 rfl

theorem ofText_injective (same : ofText s = ofText t) : s = t := by
  have read := text?_ofText s
  rw [same, text?_ofText] at read
  exact (Option.some.inj read).symm

theorem text?_eq_none_iff : text? units = none ↔ ¬ Whole units := by
  rw [Option.eq_none_iff_forall_ne_some, Whole, not_exists]
  exact forall_congr' fun t => not_congr text?_eq_some_iff

theorem whole_ofText (t : Text) : Whole (ofText t) := ⟨t, rfl⟩

theorem whole_append : Whole (a ++ b) ↔ Whole a ∧ Whole b := by
  constructor
  · intro whole
    obtain ⟨t, same⟩ := whole
    obtain ⟨s, t, rfl, rfl, rfl⟩ := List.append_eq_map_iff.1 same
    exact ⟨whole_ofText s, whole_ofText t⟩
  · intro both
    obtain ⟨⟨s, rfl⟩, t, rfl⟩ := both
    exact ⟨s ++ t, List.map_append.symm⟩

theorem first_torn (lines : List Spelling) : (∀ line ∈ lines, Whole line) ∨
    ∃ (before : List Text) (line : Spelling) (after : List Spelling),
      lines = before.map ofText ++ line :: after ∧ ¬ Whole line := by
  induction lines with
  | nil => exact .inl nofun
  | cons line lines ih =>
    by_cases own : Whole line
    · rcases ih with all | ⟨before, torn, after, rfl, broken⟩
      · exact .inl (List.forall_mem_cons.2 ⟨own, all⟩)
      · obtain ⟨t, rfl⟩ := own
        exact .inr ⟨t :: before, torn, after, rfl, broken⟩
    · exact .inr ⟨[], line, lines, rfl, own⟩

end Spelling
end OperatorCalculus
