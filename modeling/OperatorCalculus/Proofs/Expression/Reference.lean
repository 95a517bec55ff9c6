import Mathlib.Data.Finset.Card
import Mathlib.Data.Finset.Dedup
import OperatorCalculus.Proofs.Expression.Splice

namespace OperatorCalculus

namespace Numbering

variable {names : Numbering} {vs : List Text} {v : Text}

def firstNumber (values : List Text) (v : Text) : Nat :=
  (values.takeWhile (· != v)).toFinset.card + 1

theorem nodup_enter (distinct : names.Nodup) (v : Text) : (names.enter v).Nodup := by
  unfold enter
  split
  · exact distinct
  · next fresh =>
    have apart : v ∉ names := by simpa using fresh
    refine List.nodup_append.2 ⟨distinct, List.nodup_singleton v, ?_⟩
    intro a old b new same
    rw [same, List.mem_singleton.1 new] at old
    exact apart old

theorem nodup_enterAll (distinct : names.Nodup) (vs : List Text) : (names.enterAll vs).Nodup := by
  induction vs generalizing names with
  | nil => exact distinct
  | cons v rest ih => exact ih (nodup_enter distinct v)

theorem length_enterAll_nil (vs : List Text) : (enterAll [] vs).length = vs.toFinset.card := by
  have same : (enterAll [] vs).toFinset = vs.toFinset := by
    ext v
    simp [mem_enterAll]
  rw [← List.toFinset_card_of_nodup (nodup_enterAll List.nodup_nil vs), same]

theorem enterAll_eq_eraseDups (vs : List Text) : enterAll [] vs = vs.eraseDups := by
  induction vs using List.reverseRecOn with
  | nil => rfl
  | append_singleton vs v ih =>
    rw [enterAll_append, ih, List.eraseDups_append]
    have last : enterAll vs.eraseDups [v] = enter vs.eraseDups v := rfl
    rw [last, enter, List.removeAll]
    by_cases old : v ∈ vs
    · simp [old]
    · simp [old, List.eraseDups_cons]

theorem takeWhile_append_of_not_mem {v : Text} {before : List Text} (absent : v ∉ before)
    (after : List Text) :
    (before ++ after).takeWhile (· != v) = before ++ after.takeWhile (· != v) := by
  apply List.takeWhile_append_of_pos
  intro u inside
  simpa using fun equal : u = v => absent (equal ▸ inside)

theorem number_enterAll (vs : List Text) (v : Text) :
    number (enterAll [] vs) v = firstNumber vs v := by
  by_cases member : v ∈ vs
  · obtain ⟨before, after, same, fresh⟩ := List.eq_append_cons_of_mem member
    have front : vs.takeWhile (· != v) = before := by
      rw [same, takeWhile_append_of_not_mem fresh]
      simp
    have apart : v ∉ enterAll [] before := by simpa [mem_enterAll] using fresh
    have entered : enterAll [] (before ++ [v]) = enterAll [] before ++ [v] := by
      rw [enterAll_append]
      show (enterAll [] before).enter v = _
      rw [enter, if_neg (by simpa using apart)]
    have whole : enterAll [] vs = (enterAll [] before ++ [v]).enterAll after := by
      rw [same, List.append_cons, enterAll_append, entered]
    have first : enterAll [] before ++ [v] <+: enterAll [] vs := by
      rw [whole]
      exact prefix_enterAll _ after
    rw [number_of_first first (by simp), number, List.idxOf_append_of_notMem apart, firstNumber,
      front, length_enterAll_nil]
    simp
  · have apart : v ∉ enterAll [] vs := by simpa [mem_enterAll] using member
    have whole : vs.takeWhile (· != v) = vs := by
      have all := takeWhile_append_of_not_mem member []
      rwa [List.append_nil, List.takeWhile_nil, List.append_nil] at all
    rw [number, List.idxOf_eq_length apart, length_enterAll_nil, firstNumber, whole]

theorem exists_number_iff (distinct : names.Nodup) (n : Nat) :
    (∃ v ∈ names, names.number v = n) ↔ 1 ≤ n ∧ n ≤ names.length := by
  constructor
  · rintro ⟨v, member, rfl⟩
    have inside := List.idxOf_lt_length_of_mem member
    unfold number
    omega
  · rintro ⟨positive, bound⟩
    have inside : n - 1 < names.length := by omega
    refine ⟨names[n - 1], List.getElem_mem inside, ?_⟩
    rw [number, distinct.idxOf_getElem]
    omega

end Numbering

theorem instantiate_operands (names final : Numbering) (position : Nat) (ts : List Token)
    (numbered : names.enterAll (ts.map Span.value) <+: final) :
    (instantiate names position ts).1 = ts.mapIdx fun i t =>
      ⟨t.value, final.number t.value, position + i, t.kind⟩ := by
  induction ts generalizing names position with
  | nil => rfl
  | cons t rest ih =>
    have entered : names.enter t.value <+: final :=
      (Numbering.prefix_enterAll _ (rest.map Span.value)).trans numbered
    -- A number that was given is never changed.
    have own : final.number t.value = (names.enter t.value).number t.value :=
      Numbering.number_of_first entered (Numbering.mem_enter.2 (.inr rfl))
    have step : (instantiate names position (t :: rest)).1 =
        ⟨t.value, (names.enter t.value).number t.value, position, t.kind⟩ ::
          (instantiate (names.enter t.value) (position + 1) rest).1 := rfl
    rw [step, List.mapIdx_cons, ih _ (position + 1) numbered, own]
    simp only [Nat.add_zero, Nat.add_assoc, Nat.add_comm 1]

namespace Expression

def referenceSide (values : List Text) (position : Nat) (e : Text) : Normalized where
  expression := e
  normalized := respell (fun v => NumberedOperand.tagged v (Numbering.firstNumber values v)) e
  integer := respell (fun v => Text.ofNat (Numbering.firstNumber values v)) e
  operands := (Operand.extract e).mapIdx fun i t =>
    ⟨t.value, Numbering.firstNumber values t.value, position + i, t.kind⟩
  names := values.eraseDups

def referencePair (left right : Text) : NormalizedPair :=
  let values := operands left ++ operands right
  ⟨referenceSide values 1 left, referenceSide values ((operands left).length + 1) right⟩

theorem length_operands (e : Text) : (operands e).length = (Operand.extract e).length :=
  List.length_map _

theorem normalizePair_eq_referencePair (left right : Text) :
    normalizePair left right = referencePair left right := by
  have names : (instantiate (instantiate [] 1 (Operand.extract left)).2
      ((Operand.extract left).length + 1) (Operand.extract right)).2 =
      Numbering.enterAll [] (operands left ++ operands right) := by
    rw [instantiate_names, instantiate_names, ← Numbering.enterAll_append]
    rfl
  have leftFirst : Numbering.enterAll [] (operands left) <+:
      Numbering.enterAll [] (operands left ++ operands right) := by
    rw [Numbering.enterAll_append]
    exact Numbering.prefix_enterAll _ _
  have bothNumbered : Numbering.enterAll (instantiate [] 1 (Operand.extract left)).2
      (operands right) <+: Numbering.enterAll [] (operands left ++ operands right) := by
    rw [instantiate_names, Numbering.enterAll_append]
    exact List.prefix_refl _
  have first := instantiate_operands [] _ 1 (Operand.extract left) leftFirst
  have second := instantiate_operands _ _ ((Operand.extract left).length + 1)
    (Operand.extract right) bothNumbered
  simp only [normalizePair, referencePair, referenceSide, Normalized.ofParts, names, first, second,
    replaceAll_eq_respell, Numbering.number_enterAll, length_operands]
  rw [Numbering.enterAll_eq_eraseDups]

theorem operands_referencePair (left right : Text) :
    (referencePair left right).operands =
      (Operand.extract left ++ Operand.extract right).mapIdx fun i t =>
        ⟨t.value, Numbering.firstNumber (operands left ++ operands right) t.value, 1 + i, t.kind⟩ := by
  rw [List.mapIdx_append]
  simp only [NormalizedPair.operands, referencePair, referenceSide, length_operands, Nat.add_comm,
    Nat.add_left_comm]

theorem mem_operands_referencePair {left right : Text} {o : NumberedOperand}
    (member : o ∈ (referencePair left right).operands) :
    o.value ∈ operands left ++ operands right ∧
      o.number = Numbering.firstNumber (operands left ++ operands right) o.value := by
  rw [operands_referencePair] at member
  obtain ⟨i, bound, rfl⟩ := List.mem_mapIdx.1 member
  refine ⟨?_, rfl⟩
  rw [operands, operands, ← List.map_append]
  exact List.mem_map_of_mem (List.getElem_mem bound)

theorem values_referencePair (left right : Text) :
    (referencePair left right).operands.map NumberedOperand.value =
      operands left ++ operands right := by
  rw [operands_referencePair, operands, operands, ← List.map_append]
  refine List.ext_getElem (by simp) fun i bound bound' => ?_
  simp only [List.getElem_map, List.getElem_mapIdx]

theorem positions_referencePair (left right : Text) :
    (referencePair left right).operands.map NumberedOperand.position =
      List.range' 1 (operands left ++ operands right).length := by
  rw [operands_referencePair, List.length_append, length_operands, length_operands]
  refine List.ext_getElem (by simp) fun i bound bound' => ?_
  simp

theorem numbers_referencePair (left right : Text) (n : Nat) :
    n ∈ (referencePair left right).operands.map NumberedOperand.number ↔
      1 ≤ n ∧ n ≤ (operands left ++ operands right).toFinset.card := by
  rw [← Numbering.length_enterAll_nil,
    ← Numbering.exists_number_iff (Numbering.nodup_enterAll List.nodup_nil _), List.mem_map]
  constructor
  · rintro ⟨o, member, rfl⟩
    obtain ⟨inside, own⟩ := mem_operands_referencePair member
    exact ⟨o.value, Numbering.mem_enterAll.2 (.inr inside), by rw [own, Numbering.number_enterAll]⟩
  · rintro ⟨v, member, rfl⟩
    have inside : v ∈ operands left ++ operands right := by simpa [Numbering.mem_enterAll] using member
    rw [← values_referencePair, List.mem_map] at inside
    obtain ⟨o, place, rfl⟩ := inside
    exact ⟨o, place, by rw [(mem_operands_referencePair place).2, Numbering.number_enterAll]⟩

theorem number_eq_iff {left right : Text} {a b : NumberedOperand}
    (inA : a ∈ (referencePair left right).operands) (inB : b ∈ (referencePair left right).operands) :
    a.number = b.number ↔ a.value = b.value := by
  obtain ⟨inside, ownA⟩ := mem_operands_referencePair inA
  obtain ⟨_, ownB⟩ := mem_operands_referencePair inB
  rw [ownA, ownB]
  constructor
  · intro same
    rw [← Numbering.number_enterAll, ← Numbering.number_enterAll] at same
    exact Numbering.number_inj (Numbering.mem_enterAll.2 (.inr inside)) same
  · intro same
    rw [same]

-- A pair in its numbered forms is the reference: the forms are the gaps of the sides with
-- the numbers between them, positions and numbers leave nothing out, and both sides list
-- the same values in the order of first appearance.
theorem normalizePair_follows_reference (left right placeholder : Text) :
    let values := operands left ++ operands right
    let pair := normalizePair left right
    respell id left = left ∧ respell id right = right ∧
      pair = referencePair left right ∧
      skeleton placeholder left = respell (fun _ => placeholder) left ∧
      skeleton placeholder right = respell (fun _ => placeholder) right ∧
      pair.operands.map NumberedOperand.value = values ∧
      pair.operands.map NumberedOperand.position = List.range' 1 values.length ∧
      (∀ n, n ∈ pair.operands.map NumberedOperand.number ↔ 1 ≤ n ∧ n ≤ values.toFinset.card) ∧
      (∀ a ∈ pair.operands, ∀ b ∈ pair.operands, a.number = b.number ↔ a.value = b.value) ∧
      pair.left.mapping = pair.right.mapping ∧
      pair.left.mapping = values.eraseDups.map fun v =>
        (v, NumberedOperand.tagged v (Numbering.firstNumber values v)) := by
  intro values pair
  have reference : pair = referencePair left right := normalizePair_eq_referencePair left right
  have mapping : (referencePair left right).left.mapping = values.eraseDups.map fun v =>
      (v, NumberedOperand.tagged v (Numbering.firstNumber values v)) := by
    simp only [Normalized.mapping, referencePair, referenceSide, values,
      ← Numbering.number_enterAll, ← Numbering.enterAll_eq_eraseDups]
  refine ⟨respell_id left, respell_id right, reference, replaceAll_eq_respell _ left,
    replaceAll_eq_respell _ right, ?_⟩
  rw [reference]
  exact ⟨values_referencePair left right, positions_referencePair left right,
    numbers_referencePair left right, fun a inA b inB => number_eq_iff inA inB, rfl, mapping⟩

end Expression
end OperatorCalculus
