import Mathlib.Data.List.Basic
import OperatorCalculus.Proofs.Text.Trim

namespace OperatorCalculus

namespace Text

variable {part s t : Text} {c : Char}

theorem prefix_of_prefix_append_cons (free : c ∉ part) (front : part <+: s ++ c :: t) : part <+: s := by
  induction s generalizing part with
  | nil =>
    cases part with
    | nil => exact List.nil_prefix
    | cons d part =>
      obtain ⟨same, _⟩ := List.cons_prefix_cons.1 front
      exact absurd same.symm (List.ne_of_not_mem_cons free)
  | cons d s ih =>
    cases part with
    | nil => exact List.nil_prefix
    | cons e part =>
      obtain ⟨same, rest⟩ := List.cons_prefix_cons.1 front
      exact List.cons_prefix_cons.2 ⟨same, ih (List.not_mem_of_not_mem_cons free) rest⟩

theorem infix_append_cons_iff (free : c ∉ part) : part <:+: s ++ c :: t ↔ part <:+: s ∨ part <:+: t := by
  induction s with
  | nil =>
    rw [List.nil_append, List.infix_cons_iff, List.infix_nil]
    refine or_congr_left ⟨fun front => ?_, fun empty => empty ▸ List.nil_prefix⟩
    exact List.prefix_nil.1 (prefix_of_prefix_append_cons (s := []) free front)
  | cons d s ih =>
    rw [List.cons_append, List.infix_cons_iff, ih, List.infix_cons_iff, or_assoc]
    refine or_congr_left ⟨fun front => ?_, fun front => ?_⟩
    · exact prefix_of_prefix_append_cons (s := d :: s) free front
    · exact front.trans (List.prefix_append (d :: s) (c :: t))

theorem contains_append_cons (free : c ∉ part) :
    contains part (s ++ c :: t) = (contains part s || contains part t) := by
  rw [Bool.eq_iff_iff, Bool.or_eq_true, contains_iff, contains_iff, contains_iff]
  exact infix_append_cons_iff free

theorem append_cons_inj_of_last {c : Char} {s s' t t' : Text} (last : c ∉ t) (last' : c ∉ t')
    (same : s ++ c :: t = s' ++ c :: t') : s = s' ∧ t = t' := by
  rcases List.append_eq_append_iff.1 same with ⟨more, front, back⟩ | ⟨more, front, back⟩
  · cases more with
    | nil =>
      rw [List.append_nil] at front
      exact ⟨front.symm, (List.cons.inj back).2⟩
    | cons d more =>
      rw [(List.cons.inj back).2] at last
      exact absurd (List.mem_append_right _ List.mem_cons_self) last
  · cases more with
    | nil =>
      rw [List.append_nil] at front
      exact ⟨front, (List.cons.inj back).2.symm⟩
    | cons d more =>
      rw [(List.cons.inj back).2] at last'
      exact absurd (List.mem_append_right _ List.mem_cons_self) last'

theorem join_of_mem (sep : Text) {l : Text} {ls : List Text} (member : l ∈ ls) :
    ∃ before after, join sep ls = before ++ (l ++ after) := by
  induction ls with
  | nil => cases member
  | cons first more ih =>
    cases more with
    | nil =>
      rw [List.mem_singleton.1 member]
      exact ⟨[], [], (List.append_nil _).symm⟩
    | cons second more =>
      cases List.mem_cons.1 member with
      | inl same =>
        rw [same]
        exact ⟨[], sep ++ join sep (second :: more), List.append_assoc ..⟩
      | inr later =>
        obtain ⟨before, after, place⟩ := ih later
        refine ⟨first ++ sep ++ before, after, ?_⟩
        rw [join.eq_3 _ _ _ (List.cons_ne_nil _ _), place]
        simp

end Text
end OperatorCalculus
