import OperatorCalculus.Text.Basic

namespace OperatorCalculus

namespace Text

structure Trimmed (t : Text) : Prop where
  front : ∀ c, t.head? = some c → isBlank c = false
  back : ∀ c, t.reverse.head? = some c → isBlank c = false

theorem head_dropWhile (p : Char → Bool) (t : Text) :
    ∀ c, (t.dropWhile p).head? = some c → p c = false := by
  intro c head
  have apart := List.head?_dropWhile_not p t
  rwa [head] at apart

theorem dropWhile_of_head {p : Char → Bool} {t : Text} (apart : ∀ c, t.head? = some c → p c = false) :
    t.dropWhile p = t := by
  cases t with
  | nil => rfl
  | cons c t => exact List.dropWhile_cons_of_neg (by simp [apart c rfl])

theorem trimmed_trim (t : Text) : Trimmed (trim t) := by
  refine ⟨fun c head => ?_, fun c head => ?_⟩
  · have front : trim t <+: trimLeft t := by
      unfold trim trimRight
      rw [← List.reverse_suffix, List.reverse_reverse]
      exact List.dropWhile_suffix _
    obtain ⟨rest, whole⟩ := front
    apply head_dropWhile isBlank t c
    change (trimLeft t).head? = some c
    rw [← whole]
    cases same : trim t with
    | nil =>
      rw [same] at head
      cases head
    | cons d u =>
      rw [same] at head
      exact head
  · unfold trim trimRight at head
    rw [List.reverse_reverse] at head
    exact head_dropWhile isBlank _ c head

theorem trim_of_trimmed {t : Text} (trimmed : Trimmed t) : trim t = t := by
  unfold trim trimRight trimLeft
  rw [dropWhile_of_head trimmed.front, dropWhile_of_head trimmed.back, List.reverse_reverse]

theorem count_dropWhile {p : Char → Bool} {c : Char} (kept : p c = false) (t : Text) :
    (t.dropWhile p).count c = t.count c := by
  have none_ : (t.takeWhile p).count c = 0 := by
    apply List.count_eq_zero_of_not_mem
    intro member
    cases kept.symm.trans (List.all_eq_true.1 List.all_takeWhile c member)
  have whole := congrArg (List.count c) (List.takeWhile_append_dropWhile (p := p) (l := t))
  rw [List.count_append, none_, Nat.zero_add] at whole
  exact whole

theorem count_trim {c : Char} (visible : isBlank c = false) (t : Text) :
    (trim t).count c = t.count c := by
  unfold trim trimRight trimLeft
  rw [List.count_reverse, count_dropWhile visible, List.count_reverse, count_dropWhile visible]

theorem contains_iff {part t : Text} : contains part t = true ↔ part <:+: t := by
  unfold contains
  induction t with
  | nil => cases part <;> simp [find?]
  | cons c t ih =>
    rw [List.infix_cons_iff, ← ih, find?.eq_2]
    by_cases here : part.isPrefixOf (c :: t) = true
    · simp [here, List.isPrefixOf_iff_prefix.1 here]
    · have apart : ¬ part <+: c :: t := fun front => here (List.isPrefixOf_iff_prefix.2 front)
      simp [here, apart]

theorem infix_trimLeft_iff {part t : Text} (visible : ∀ c ∈ part, ¬ isBlank c) :
    part <:+: t.dropWhile isBlank ↔ part <:+: t := by
  induction t with
  | nil => rfl
  | cons c t ih =>
    cases blank : isBlank c with
    | false => rw [List.dropWhile_cons_of_neg (by simp [blank])]
    | true =>
      rw [List.dropWhile_cons_of_pos blank, ih, List.infix_cons_iff]
      refine (or_iff_right_of_imp ?_).symm
      intro front
      cases part with
      | nil => exact List.nil_infix
      | cons d part =>
        obtain ⟨same, _⟩ := List.cons_prefix_cons.1 front
        subst same
        exact absurd blank (visible d List.mem_cons_self)

theorem contains_trim {part : Text} (visible : ∀ c ∈ part, ¬ isBlank c) (t : Text) :
    contains part (trim t) = contains part t := by
  rw [Bool.eq_iff_iff, contains_iff, contains_iff]
  have backwards : ∀ c ∈ part.reverse, ¬ isBlank c :=
    fun c member => visible c (List.mem_reverse.1 member)
  calc part <:+: trim t
    _ ↔ part.reverse <:+: ((trimLeft t).reverse.dropWhile isBlank) := by
      rw [← List.reverse_infix, trim, trimRight, List.reverse_reverse]
    _ ↔ part.reverse <:+: (trimLeft t).reverse := infix_trimLeft_iff backwards
    _ ↔ part <:+: trimLeft t := List.reverse_infix
    _ ↔ part <:+: t := infix_trimLeft_iff visible

end Text
end OperatorCalculus
