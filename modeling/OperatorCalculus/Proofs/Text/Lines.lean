import OperatorCalculus.Text.Basic

namespace OperatorCalculus

namespace Text

theorem splitOn_cons_sep (sep : Char) (t : Text) : splitOn sep (sep :: t) = [] :: splitOn sep t := by
  simp [splitOn]

theorem splitOn_cons_other {sep c : Char} (other : c ≠ sep) (t : Text) :
    splitOn sep (c :: t) = (splitOn sep t).modifyHead (c :: ·) := by
  cases pieces : splitOn sep t with
  | nil => exact absurd pieces (splitOn_ne_nil sep t)
  | cons piece more => simp [splitOn, other, pieces]

theorem splitOn_append (sep : Char) (s t : Text) :
    splitOn sep (s ++ sep :: t) = splitOn sep s ++ splitOn sep t := by
  induction s with
  | nil => exact splitOn_cons_sep sep t
  | cons c s ih =>
    by_cases same : c = sep
    · subst same
      rw [List.cons_append, splitOn_cons_sep, splitOn_cons_sep, ih, List.cons_append]
    · rw [List.cons_append, splitOn_cons_other same, splitOn_cons_other same, ih]
      cases pieces : splitOn sep s with
      | nil => exact absurd pieces (splitOn_ne_nil sep s)
      | cons piece more => rfl

theorem splitOn_of_not_mem {sep : Char} {t : Text} (single : sep ∉ t) : splitOn sep t = [t] := by
  induction t with
  | nil => rfl
  | cons c t ih =>
    have other : sep ≠ c := List.ne_of_not_mem_cons single
    rw [splitOn_cons_other other.symm, ih (List.not_mem_of_not_mem_cons single)]
    rfl

theorem not_mem_of_mem_splitOn {sep : Char} {t l : Text} (member : l ∈ splitOn sep t) : sep ∉ l := by
  induction t generalizing l with
  | nil =>
    obtain rfl := List.mem_singleton.1 member
    exact List.not_mem_nil
  | cons c t ih =>
    by_cases same : c = sep
    · subst same
      rw [splitOn_cons_sep] at member
      cases List.mem_cons.1 member with
      | inl first => simp [first]
      | inr later => exact ih later
    · rw [splitOn_cons_other same] at member
      cases pieces : splitOn sep t with
      | nil => exact absurd pieces (splitOn_ne_nil sep t)
      | cons piece more =>
        rw [pieces] at member ih
        cases List.mem_cons.1 member with
        | inl first =>
          rw [first]
          exact List.not_mem_cons_of_ne_of_not_mem (Ne.symm same) (ih List.mem_cons_self)
        | inr later => exact ih (List.mem_cons_of_mem _ later)

theorem lines_append (s t : Text) : lines (s ++ '\n' :: t) = lines s ++ lines t :=
  splitOn_append '\n' s t

theorem lines_join {ls : List Text} (single : ∀ l ∈ ls, '\n' ∉ l) (some_ : ls ≠ []) :
    lines (join ['\n'] ls) = ls := by
  induction ls with
  | nil => exact absurd rfl some_
  | cons first more ih =>
    have alone : lines first = [first] := splitOn_of_not_mem (single first List.mem_cons_self)
    cases more with
    | nil => exact alone
    | cons second more =>
      have rest := ih (fun l member => single l (List.mem_cons_of_mem _ member)) (List.cons_ne_nil _ _)
      rw [join.eq_3 _ _ _ (List.cons_ne_nil _ _), List.append_assoc]
      rw [List.singleton_append, lines_append, alone, rest]
      rfl

theorem unifyLineEnds_of_no_return {t : Text} (single : '\r' ∉ t) : unifyLineEnds t = t := by
  induction t with
  | nil => rfl
  | cons c rest ih =>
    rw [List.mem_cons, not_or] at single
    obtain ⟨other, later⟩ := single
    rw [unifyLineEnds.eq_3 _ _ fun _ same _ => other same.symm, ih later]
    simp [Ne.symm other]

end Text
end OperatorCalculus
