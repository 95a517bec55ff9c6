import Mathlib.Data.List.Permutation
import OperatorCalculus.Proofs.Expression.Exchange
import OperatorCalculus.Proofs.Expression.Reference

-- Canonical forms forget the names of the operands and nothing else. A form falls apart into
-- gaps and numbers in one way only, since no number can be taken for a part of a gap; and the
-- operands of two pairs with the same forms are numbered one to one.
namespace OperatorCalculus

open Scan Text Operand

namespace Reading

variable {ps qs as bs : Reading} {image image' : Text → Text} {target rule : Numbering}

theorem Aligned.between (aligned : Aligned image image' ps qs) (pending : Text) :
    Reading.between pending ps = Reading.between pending qs := by
  induction aligned generalizing pending with
  | nil => rfl
  | cons part later ih =>
    cases part with
    | gap t => exact ih (pending ++ t)
    | operand k k' same => exact congrArg (pending :: ·) (ih [])

theorem Aligned.map_restored (aligned : Aligned rule.written target.written as ps)
    (inside : ∀ v ∈ values ps, v ∈ target) :
    (values as).map (Numbering.restored target rule) = values ps := by
  have restored := aligned.map_alike (g := id) fun _ _ u member same =>
    Numbering.restored_eq (inside u member) same
  rwa [List.map_id] at restored

theorem restored_bijOn (left : Aligned rule.written target.written as ps)
    (right : Aligned rule.written target.written bs qs)
    (inside : ∀ v, v ∈ values as ∨ v ∈ values bs → v ∈ rule)
    (inside' : ∀ v, v ∈ values ps ∨ v ∈ values qs → v ∈ target) :
    Set.BijOn (Numbering.restored target rule) {v | v ∈ values as ∨ v ∈ values bs}
      {v | v ∈ values ps ∨ v ∈ values qs} := by
  have inP : ∀ v ∈ values ps, v ∈ target := fun v member => inside' v (.inl member)
  have inQ : ∀ v ∈ values qs, v ∈ target := fun v member => inside' v (.inr member)
  have number : ∀ v, v ∈ values as ∨ v ∈ values bs →
      target.number (Numbering.restored target rule v) = rule.number v := by
    rintro v (inAs | inBs)
    · exact (restored_values left inP inAs).2
    · exact (restored_values right inQ inBs).2
  refine ⟨?_, ?_, ?_⟩
  · rintro v (inAs | inBs)
    · exact .inl (restored_values left inP inAs).1
    · exact .inr (restored_values right inQ inBs).1
  · intro v member w member' same
    have numbers := number v member
    rw [same, number w member'] at numbers
    exact (Numbering.number_inj (inside w member') numbers).symm
  · rintro u (inPs | inQs)
    · rw [← left.map_restored inP] at inPs
      obtain ⟨v, member, rfl⟩ := List.mem_map.1 inPs
      exact ⟨v, .inl member, rfl⟩
    · rw [← right.map_restored inQ] at inQs
      obtain ⟨v, member, rfl⟩ := List.mem_map.1 inQs
      exact ⟨v, .inr member, rfl⟩

end Reading

namespace Expression

open Reading

variable {left right left' right' : Text} {s : Text → Text}

-- What an expression consists of besides its operands.
def between (e : Text) : List Text := gaps e 0 (Operand.extract e)

theorem canonicalPair_eq_respell (left right : Text) : canonicalPair left right =
    (respell (numbering left right).written left, respell (numbering left right).written right) := by
  obtain ⟨ps, readsL, rfl⟩ := Reads.exists_of_text left false
  obtain ⟨qs, readsR, rfl⟩ := Reads.exists_of_text right false
  rw [readsL.canonicalPair_text readsR, respell_text readsL, respell_text readsR,
    numbering_text readsL readsR]
  rfl

theorem canonicalPair_eq_of_bijOn (gapsL : between left = between left')
    (gapsR : between right = between right')
    (distinct : Set.InjOn s {v | v ∈ operands left ∨ v ∈ operands right})
    (starts : (operands left).map s = operands left')
    (goals : (operands right).map s = operands right') :
    canonicalPair left right = canonicalPair left' right' := by
  have names : numbering left' right' = (numbering left right).map s := by
    have all : Set.InjOn s {v | v ∈ ([] : Numbering) ∨ v ∈ operands left ++ operands right} :=
      distinct.mono fun v place => by simpa using place
    rw [numbering, numbering, ← starts, ← goals, ← List.map_append]
    exact Numbering.enterAll_map all
  have inNames : ∀ v, v ∈ numbering left right ↔ v ∈ operands left ∨ v ∈ operands right := by
    simp [numbering, Numbering.mem_enterAll]
  have written : ∀ v, v ∈ operands left ∨ v ∈ operands right →
      (numbering left' right').written (s v) = (numbering left right).written v := by
    intro v member
    rw [names, Numbering.written, Numbering.written,
      Numbering.number_map (distinct.mono fun w => (inNames w).1) ((inNames v).2 member)]
  have respelt : ∀ e e', between e = between e' → (operands e).map s = operands e' →
      (∀ v ∈ operands e, v ∈ operands left ∨ v ∈ operands right) →
      respell (numbering left right).written e = respell (numbering left' right').written e' := by
    intro e e' same renamed inside
    have own : gaps e 0 (Operand.extract e) = gaps e' 0 (Operand.extract e') := same
    rw [respell, respell, own, ← renamed, List.map_map]
    congr 1
    exact List.map_congr_left fun v member => (written v (inside v member)).symm
  rw [canonicalPair_eq_respell, canonicalPair_eq_respell,
    respelt left left' gapsL starts fun v => .inl, respelt right right' gapsR goals fun v => .inr]

-- The comparison of canonical forms is exact: two pairs in which no call touches a word have the
-- same forms when they have as many operands between the same texts and one renaming, one to
-- one, takes the operands of the one to those of the other at every place.
theorem canonicalPair_eq_iff (unglued : Unglued left) (unglued' : Unglued right)
    (plain : Unglued left') (plain' : Unglued right') :
    canonicalPair left right = canonicalPair left' right' ↔
      ((operands left).length = (operands left').length ∧ between left = between left') ∧
      ((operands right).length = (operands right').length ∧ between right = between right') ∧
      ∃ s, Set.BijOn s {v | v ∈ operands left ∨ v ∈ operands right}
          {v | v ∈ operands left' ∨ v ∈ operands right'} ∧
        (operands left).map s = operands left' ∧ (operands right).map s = operands right' := by
  constructor
  · intro same
    obtain ⟨as, sepA, rfl⟩ := exists_separated unglued
    obtain ⟨bs, sepB, rfl⟩ := exists_separated unglued'
    obtain ⟨ps, sepP, rfl⟩ := exists_separated plain
    obtain ⟨qs, sepQ, rfl⟩ := exists_separated plain'
    rw [sepA.reads.canonicalPair_text sepB.reads, sepP.reads.canonicalPair_text sepQ.reads] at same
    have first := aligned_of_numbered sepP sepA (congrArg Prod.fst same).symm
    have second := aligned_of_numbered sepQ sepB (congrArg Prod.snd same).symm
    have starts := first.map_restored fun v member => mem_names.2 (.inl member)
    have goals := second.map_restored fun v member => mem_names.2 (.inr member)
    have bijective := restored_bijOn first second (fun v => mem_names.2) (fun v => mem_names.2)
    rw [between, between, between, between, gaps_text sepA.reads, gaps_text sepB.reads,
      gaps_text sepP.reads, gaps_text sepQ.reads, operands_text sepA.reads,
      operands_text sepB.reads, operands_text sepP.reads, operands_text sepQ.reads]
    refine ⟨⟨?_, first.between []⟩, ⟨?_, second.between []⟩, _, bijective, starts, goals⟩
    · rw [← starts, List.length_map]
    · rw [← goals, List.length_map]
  · rintro ⟨⟨_, gapsL⟩, ⟨_, gapsR⟩, s, bijective, starts, goals⟩
    exact canonicalPair_eq_of_bijOn gapsL gapsR bijective.injOn starts goals

theorem canonicalPair_eq_iff_call :
    let left := ", i \\Ps2 j,".toList
    let right := ", j,".toList
    let left' := ", R(a) \\Ps2 b,".toList
    let right' := ", b,".toList
    (Unglued left ∧ Unglued right ∧ Unglued left' ∧ Unglued right') ∧
      between left = between left' ∧ (operands left).length = 2 ∧
      ∃ s, Set.BijOn s {v | v ∈ operands left ∨ v ∈ operands right}
          {v | v ∈ operands left' ∨ v ∈ operands right'} ∧
        (operands left).map s = operands left' ∧ (operands right).map s = operands right' := by
  have unglued : Unglued ", i \\Ps2 j,".toList := isUnglued_iff.1 (by decide_cbv)
  have unglued' : Unglued ", j,".toList := isUnglued_iff.1 (by decide_cbv)
  have plain : Unglued ", R(a) \\Ps2 b,".toList := isUnglued_iff.1 (by decide_cbv)
  have plain' : Unglued ", b,".toList := isUnglued_iff.1 (by decide_cbv)
  have same : canonicalPair ", i \\Ps2 j,".toList ", j,".toList =
      canonicalPair ", R(a) \\Ps2 b,".toList ", b,".toList := by decide_cbv
  obtain ⟨⟨_, gaps⟩, _, renamed⟩ := (canonicalPair_eq_iff unglued unglued' plain plain').1 same
  exact ⟨⟨unglued, unglued', plain, plain'⟩, gaps, by decide_cbv, renamed⟩

end Expression
end OperatorCalculus
