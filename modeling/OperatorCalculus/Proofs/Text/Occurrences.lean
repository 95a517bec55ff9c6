import OperatorCalculus.Text.Basic

namespace OperatorCalculus

namespace Text

theorem mem_occurrences {part t : Text} {i : Nat} : i ∈ occurrences part t ↔
    ∃ before after, t = before ++ part ++ after ∧ before.length = i := by
  induction t generalizing i with
  | nil =>
    constructor
    · intro member
      simp only [occurrences] at member
      split at member
      · next empty =>
        rw [List.isEmpty_iff.1 empty]
        exact ⟨[], [], rfl, (List.mem_singleton.1 member).symm⟩
      · cases member
    · intro found
      obtain ⟨before, after, same, rfl⟩ := found
      have empty := List.append_eq_nil_iff.1 (List.append_eq_nil_iff.1 same.symm).1
      simp [occurrences, empty.1, empty.2]
  | cons c rest ih =>
    have later : i ∈ (occurrences part rest).map (· + 1) ↔
        ∃ before after, c :: rest = (c :: before) ++ part ++ after ∧ before.length + 1 = i := by
      simp only [List.mem_map, ih]
      constructor
      · intro found
        obtain ⟨j, ⟨before, after, same, rfl⟩, rfl⟩ := found
        exact ⟨before, after, by rw [same]; rfl, rfl⟩
      · intro found
        obtain ⟨before, after, same, rfl⟩ := found
        exact ⟨before.length, ⟨before, after, List.tail_eq_of_cons_eq same, rfl⟩, rfl⟩
    have first : part.isPrefixOf (c :: rest) = true ↔ ∃ after, c :: rest = part ++ after := by
      rw [List.isPrefixOf_iff_prefix, List.prefix_iff_exists_eq_append]
    have split : i ∈ occurrences part (c :: rest) ↔
        (i = 0 ∧ part.isPrefixOf (c :: rest) = true) ∨ i ∈ (occurrences part rest).map (· + 1) := by
      simp only [occurrences]
      split
      · next opens => simp [opens]
      · next closed => simp [closed]
    rw [split, later, first]
    constructor
    · rintro (⟨rfl, after, same⟩ | ⟨before, after, same, rfl⟩)
      · exact ⟨[], after, same, rfl⟩
      · exact ⟨c :: before, after, same, rfl⟩
    · intro found
      obtain ⟨before, after, same, rfl⟩ := found
      cases before with
      | nil => exact .inl ⟨rfl, after, same⟩
      | cons d before =>
        have head : c = d := (List.cons.inj same).1
        subst head
        exact .inr ⟨before, after, same, rfl⟩

theorem occurrences_ordered (part t : Text) : (occurrences part t).Pairwise (· < ·) := by
  induction t with
  | nil =>
    simp only [occurrences]
    split <;> simp
  | cons c rest ih =>
    have later : ((occurrences part rest).map (· + 1)).Pairwise (· < ·) :=
      List.pairwise_map.2 (ih.imp Nat.succ_lt_succ)
    simp only [occurrences]
    split
    · refine .cons ?_ later
      intro i member
      obtain ⟨j, _, rfl⟩ := List.mem_map.1 member
      exact Nat.succ_pos j
    · exact later

end Text
end OperatorCalculus
