import OperatorCalculus.Proofs.Expression.Word

namespace OperatorCalculus

namespace Operand

open Scan Text

def IsCall (u : Text) : Prop :=
  ∃ n ∈ callNames, ∃ arguments, u = n.1 ++ '(' :: (arguments ++ [')']) ∧ ')' ∉ arguments ∧
    n.2.admits arguments = true

def CallAhead (t : Text) : Prop := ∃ u r, t = u ++ r ∧ IsCall u

theorem callNames_plain : ∀ n ∈ callNames, n.1 ≠ [] ∧ ∀ c ∈ n.1, isLetter c = true := by
  simp [callNames, isLetter, isUpper, isLower]

theorem isWord_of_isLetter {c : Char} (letter : isLetter c = true) : isWord c = true := by
  simp [isWord, letter]

theorem name_run {n : Text × ArgumentShape} (member : n ∈ callNames) : IsRun n.1 :=
  ⟨(callNames_plain n member).1, fun c inName =>
    isWord_of_isLetter ((callNames_plain n member).2 c inName)⟩

theorem name_unique {n k : Text × ArgumentShape} (inN : n ∈ callNames) (inK : k ∈ callNames)
    {s t : Text} (same : n.1 ++ '(' :: s = k.1 ++ '(' :: t) : n.1 = k.1 ∧ s = t := by
  obtain ⟨name, rest⟩ := run_unique (name_run inN) rfl (name_run inK) rfl same
  exact ⟨name, List.tail_eq_of_cons_eq rest⟩

theorem takeWhile_arguments {s : Text} (free : ')' ∉ s) (rest : Text) :
    (s ++ ')' :: rest).takeWhile (· != ')') = s := by
  have inside : ∀ c ∈ s, (c != ')') = true := by
    intro c member
    simp only [bne_iff_ne, ne_eq]
    intro closes
    exact free (closes ▸ member)
  rw [List.takeWhile_append_of_pos inside]
  simp

theorem arguments_unique {s t x y : Text} (freeS : ')' ∉ s) (freeT : ')' ∉ t)
    (same : s ++ ')' :: x = t ++ ')' :: y) : s = t ∧ x = y := by
  have front := congrArg (List.takeWhile (· != ')')) same
  rw [takeWhile_arguments freeS, takeWhile_arguments freeT] at front
  subst front
  exact ⟨rfl, List.tail_eq_of_cons_eq (List.append_cancel_left same)⟩

theorem drop_name (name body : Text) : (name ++ '(' :: body).drop (name.length + 1) = body := by
  have size : name.length + 1 = (name ++ ['(']).length := by simp
  rw [List.append_cons, size, List.drop_left]

theorem closing_split {body : Text}
    (closing : (body.takeWhile (· != ')')).length < body.length) :
    ∃ arguments r, body = arguments ++ ')' :: r ∧ ')' ∉ arguments ∧
      body.takeWhile (· != ')') = arguments := by
  have both := List.takeWhile_append_dropWhile (p := (· != ')')) (l := body)
  cases rest : body.dropWhile (· != ')') with
  | nil =>
    rw [rest, List.append_nil] at both
    rw [both] at closing
    omega
  | cons c r =>
    have closes := List.head_dropWhile_not (· != ')') (l := body) (by simp [rest])
    simp only [rest, List.head_cons, bne_eq_false_iff_eq] at closes
    subst closes
    rw [rest] at both
    refine ⟨body.takeWhile (· != ')'), r, both.symm, ?_, rfl⟩
    intro member
    have apart := List.all_eq_true.1 List.all_takeWhile _ member
    simp at apart

theorem callLength_eq_some_iff {name : Text} {shape : ArgumentShape} {t : Text} {size : Nat} :
    callLength name shape t = some size ↔ ∃ arguments r,
      t = name ++ '(' :: (arguments ++ ')' :: r) ∧ ')' ∉ arguments ∧
        shape.admits arguments = true ∧ size = name.length + arguments.length + 2 := by
  constructor
  · intro found
    unfold callLength at found
    split at found
    · next opening =>
      obtain ⟨body, rfl⟩ := List.isPrefixOf_iff_prefix.1 opening
      rw [List.append_assoc, List.singleton_append] at found ⊢
      rw [drop_name] at found
      simp only at found
      split at found
      · next closing =>
        simp only [Bool.and_eq_true, decide_eq_true_eq] at closing
        obtain ⟨arguments, r, rfl, free, front⟩ := closing_split closing.1
        rw [front] at closing found
        exact ⟨arguments, r, rfl, free, closing.2, (Option.some.inj found).symm⟩
      · cases found
    · cases found
  · intro found
    obtain ⟨arguments, r, rfl, free, admitted, rfl⟩ := found
    have opening : (name ++ ['(']).isPrefixOf (name ++ '(' :: (arguments ++ ')' :: r)) = true :=
      List.isPrefixOf_iff_prefix.2 ⟨arguments ++ ')' :: r, by simp⟩
    simp only [callLength, opening, if_true, drop_name, takeWhile_arguments free, admitted,
      Bool.and_true, decide_eq_true_eq]
    rw [if_pos (by simp)]

theorem call_eq_some_iff {before : Option Char} {t : Text} {size : Nat} :
    call before t = some size ↔ ∃ u r, t = u ++ r ∧ IsCall u ∧ size = u.length := by
  constructor
  · intro found
    obtain ⟨n, member, own⟩ := List.exists_of_findSome?_eq_some found
    obtain ⟨arguments, r, rfl, free, admitted, rfl⟩ := callLength_eq_some_iff.1 own
    exact ⟨n.1 ++ '(' :: (arguments ++ [')']), r, by simp, ⟨n, member, arguments, rfl, free, admitted⟩,
      by simp; omega⟩
  · intro found
    obtain ⟨u, r, rfl, ⟨n, member, arguments, rfl, free, admitted⟩, rfl⟩ := found
    have own : callLength n.1 n.2 (n.1 ++ '(' :: (arguments ++ [')']) ++ r) =
        some (n.1.length + arguments.length + 2) :=
      callLength_eq_some_iff.2 ⟨arguments, r, by simp, free, admitted, rfl⟩
    cases found : call before (n.1 ++ '(' :: (arguments ++ [')']) ++ r) with
    | none =>
      have missed := List.findSome?_eq_none_iff.1 found n member
      rw [own] at missed
      cases missed
    | some size =>
      obtain ⟨k, inNames, other⟩ := List.exists_of_findSome?_eq_some found
      obtain ⟨others, y, same, freeK, _, rfl⟩ := callLength_eq_some_iff.1 other
      have aligned : n.1 ++ '(' :: (arguments ++ ')' :: r) = k.1 ++ '(' :: (others ++ ')' :: y) := by
        rw [← same]
        simp
      obtain ⟨name, rest⟩ := name_unique member inNames aligned
      obtain ⟨rfl, _⟩ := arguments_unique free freeK rest
      simp only [name, List.length_append, List.length_cons, List.length_nil, Option.some.injEq]
      omega

theorem call_eq_none_iff {before : Option Char} {t : Text} :
    call before t = none ↔ ¬ CallAhead t := by
  constructor
  · rintro none ⟨u, r, same, isCall⟩
    have found : call before t = some u.length := call_eq_some_iff.2 ⟨u, r, same, isCall, rfl⟩
    rw [none] at found
    cases found
  · intro absent
    cases found : call before t with
    | none => rfl
    | some size =>
      obtain ⟨u, r, same, isCall, _⟩ := call_eq_some_iff.1 found
      exact absurd ⟨u, r, same, isCall⟩ absent

theorem closing_of_isCall {front back u : Text} (isCall : IsCall u) (same : u = front ++ back)
    (filled : back ≠ []) : ')' ∈ back := by
  obtain ⟨n, _, arguments, rfl, _, _⟩ := isCall
  rcases List.eq_nil_or_concat back with rfl | ⟨s, c, rfl⟩
  · exact absurd rfl filled
  · rw [List.concat_eq_append, ← List.append_assoc, ← List.cons_append, ← List.append_assoc] at same
    rw [← List.singleton_inj.1 (List.append_inj_right' same rfl)]
    simp

end Operand
end OperatorCalculus
