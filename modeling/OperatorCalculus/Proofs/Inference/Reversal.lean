import OperatorCalculus.Proofs.Expression.Reread
import OperatorCalculus.Proofs.Inference.Report
import OperatorCalculus.Rule.Shipped

namespace OperatorCalculus

open Scan Text Operand

namespace Rule

open Expression

theorem tidy_cons {id name type category description sectionTitle subsectionTitle : String}
    {left right : List Char} {later : List Rule} (tidy : isTidy left = true)
    (tidy' : isTidy right = true) (rest : ∀ r ∈ later, Tidy r.left ∧ Tidy r.right) :
    ∀ r ∈ entry id name type category description (String.ofList left) (String.ofList right)
      sectionTitle subsectionTitle :: later, Tidy r.left ∧ Tidy r.right := by
  refine List.forall_mem_cons.2 ⟨⟨?_, ?_⟩, rest⟩
  · change Tidy (String.ofList left).toList
    rw [String.toList_ofList]
    exact tidy_of_isTidy tidy
  · change Tidy (String.ofList right).toList
    rw [String.toList_ofList]
    exact tidy_of_isTidy tidy'

theorem shipped_tidy : ∀ r ∈ shipped, Tidy r.left ∧ Tidy r.right := by
  unfold shipped operatorRules relationshipRules functionRules theoremRules
  refine List.forall_mem_append.2 ⟨List.forall_mem_append.2 ⟨List.forall_mem_append.2 ⟨?_, ?_⟩, ?_⟩, ?_⟩
  all_goals
    repeat' refine tidy_cons (by decide +kernel) (by decide +kernel) ?_
    exact List.forall_mem_nil _

end Rule

namespace WholeSide

open Reading Expression

variable {ps : Reading} {a b : Text}

theorem shape_numbered (ns ms : Numbering) (ps : Reading) :
    shape (numbered ns ps) = shape (numbered ms ps) := by
  refine filter_rename fun v _ => ?_
  have none : ∀ n, shape (Text.ofNat n) = [] := fun n =>
    (shape_number.1 (isNumberWord_ofNat n)).2
  exact (none _).trans (none _).symm

theorem commutes_reversed (tidy : Tidy a) (tidy' : Tidy b) :
    Commutes (renumbered ⟨b, a⟩) (renumbered ⟨a, b⟩) := by
  obtain ⟨ps, sepA, rfl⟩ := exists_separated tidy.unglued
  obtain ⟨qs, sepB, rfl⟩ := exists_separated tidy'.unglued
  have again := canonicalPair_numbered sepA sepB (fun v member => mem_names.2 member.symm)
    (quiet_of_finished sepA.reads tidy.finished (names qs ps))
    (quiet_of_finished sepB.reads tidy'.finished (names qs ps))
  rw [renumbered_text sepB.reads sepA.reads]
  refine .inr ⟨?_, ?_⟩
  · rw [renumbered_text sepA.reads sepB.reads]
    exact ⟨shape_numbered _ _ ps, shape_numbered _ _ qs⟩
  · simp only [renumbered, Sides.reverse, again]

end WholeSide

open WholeSide Expression

theorem rules_commute :
    (∀ a b : Text, Tidy a → Tidy b →
      let target := renumbered ⟨b, a⟩
      let rule := renumbered ⟨a, b⟩
      (commutativity target rule).isSome = true ∧
        ∃ f, infer? target rule = some f ∧ (f.law = .exact ∨ f.law = .commutativity)) ∧
    ∀ r ∈ Rule.shipped, Tidy r.left ∧ Tidy r.right := by
  refine ⟨fun a b tidy tidy' => ?_, Rule.shipped_tidy⟩
  intro target rule
  have commutes : Commutes target rule := commutes_reversed tidy tidy'
  refine ⟨commutativity_isSome_iff.2 commutes, ?_⟩
  rcases infer?_cases target rule with ⟨_, p, found⟩ | ⟨_, _, p, found⟩ | ⟨_, apart, _⟩
  · exact ⟨_, found, .inl rfl⟩
  · exact ⟨_, found, .inr rfl⟩
  · exact absurd commutes apart

theorem rules_commute_call :
    let a := ", R(i) \\Ps j,".toList
    let b := ", j \\Ps R(i),".toList
    Tidy a ∧ Tidy b ∧ (commutativity (renumbered ⟨b, a⟩) (renumbered ⟨a, b⟩)).isSome = true ∧
      renumbered ⟨b, a⟩ ≠ (renumbered ⟨a, b⟩).reverse := by
  have tidy : Tidy ", R(i) \\Ps j,".toList := tidy_of_isTidy (by decide_cbv)
  have tidy' : Tidy ", j \\Ps R(i),".toList := tidy_of_isTidy (by decide_cbv)
  exact ⟨tidy, tidy', (rules_commute.1 _ _ tidy tidy').1, by decide_cbv⟩

end OperatorCalculus
