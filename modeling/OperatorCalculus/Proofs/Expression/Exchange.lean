import OperatorCalculus.Proofs.Expression.Instance
import OperatorCalculus.Proofs.Inference.Replacement

namespace OperatorCalculus

open Scan Text Operand

namespace Reading

variable {ps qs as bs : Reading} {image image' : Text → Text}

theorem number_of_images {ns ms : Numbering} {v u : Text} (distinct : Set.InjOn image {v | v ∈ ns})
    (distinct' : Set.InjOn image' {u | u ∈ ms}) (labels : ns.map image = ms.map image')
    (inNs : v ∈ ns) (inMs : u ∈ ms) (same : image v = image' u) :
    ns.written v = ms.written u := by
  have first := Numbering.number_map distinct inNs
  have second := Numbering.number_map distinct' inMs
  rw [labels, same, second] at first
  rw [Numbering.written, Numbering.written, first]

theorem numbered_of_aligned (left : Aligned image image' as ps) (right : Aligned image image' bs qs)
    (distinct : Set.InjOn image {v | v ∈ values as ∨ v ∈ values bs})
    (distinct' : Set.InjOn image' {u | u ∈ values ps ∨ u ∈ values qs}) :
    numbered (names as bs) as = numbered (names ps qs) ps ∧
      numbered (names as bs) bs = numbered (names ps qs) qs := by
  have labels : (names as bs).map image = (names ps qs).map image' := by
    have first := @Numbering.enterAll_map [] (values as ++ values bs) image
      (distinct.mono fun v place => by simpa using place)
    have second := @Numbering.enterAll_map [] (values ps ++ values qs) image'
      (distinct'.mono fun u place => by simpa using place)
    rw [names, names, ← first, ← second, List.map_append, List.map_append, left.map_values,
      right.map_values]
    rfl
  have inNames : Set.InjOn image {v | v ∈ names as bs} := distinct.mono fun _ => mem_names.1
  have inNames' : Set.InjOn image' {u | u ∈ names ps qs} := distinct'.mono fun _ => mem_names.1
  constructor
  · refine left.text_rename ?_
    intro v inAs u inPs same
    exact number_of_images inNames inNames' labels (mem_names.2 (.inl inAs)) (mem_names.2 (.inl inPs))
      same
  · refine right.text_rename ?_
    intro v inBs u inQs same
    exact number_of_images inNames inNames' labels (mem_names.2 (.inr inBs)) (mem_names.2 (.inr inQs))
      same

theorem written_injOn (ns : Numbering) {P : Text → Prop} (inside : ∀ v, P v → v ∈ ns) :
    Set.InjOn ns.written {v | P v} :=
  fun v inP _ _ same => Numbering.written_inj (inside v inP) same

theorem aligned_of_numbered {target rule : Numbering} (start : Separated ps) (left : Separated as)
    (same : numbered target ps = numbered rule as) :
    Aligned rule.written target.written as ps := by
  have chunks := congrArg Text.chunks same
  rw [start.chunks_numbered, left.chunks_numbered] at chunks
  exact aligned_of_chunks left.clear start.clear (numbers_written _ _) (numbers_written _ _)
    chunks.symm

end Reading

namespace WholeSide

open Reading

variable {ps qs as bs : Reading} {start goal left right : Text}

theorem renumbered_text (readsL : Reads false ps) (readsR : Reads false qs) :
    renumbered ⟨text ps, text qs⟩ = ⟨numbered (names ps qs) ps, numbered (names ps qs) qs⟩ := by
  simp only [renumbered, readsL.canonicalPair_text readsR]

theorem renumbered_exchange (unglued : Expression.Unglued start) (unglued' : Expression.Unglued goal)
    (plain : Expression.Unglued left) (plain' : Expression.Unglued right)
    (same : renumbered ⟨start, goal⟩ = renumbered ⟨left, right⟩) :
    renumbered ⟨goal, start⟩ = renumbered ⟨right, left⟩ := by
  obtain ⟨ps, sepP, rfl⟩ := exists_separated unglued
  obtain ⟨qs, sepQ, rfl⟩ := exists_separated unglued'
  obtain ⟨as, sepA, rfl⟩ := exists_separated plain
  obtain ⟨bs, sepB, rfl⟩ := exists_separated plain'
  rw [renumbered_text sepP.reads sepQ.reads, renumbered_text sepA.reads sepB.reads] at same
  have first := aligned_of_numbered sepP sepA (congrArg Sides.left same)
  have second := aligned_of_numbered sepQ sepB (congrArg Sides.right same)
  obtain ⟨goals, starts⟩ := numbered_of_aligned second first
    (written_injOn _ fun v place => mem_names.2 place.symm)
    (written_injOn _ fun v place => mem_names.2 place.symm)
  rw [renumbered_text sepQ.reads sepP.reads, renumbered_text sepB.reads sepA.reads, goals, starts]

theorem renumbered_of_reverse (unglued : Expression.Unglued start)
    (unglued' : Expression.Unglued goal) (plain : Expression.Unglued left)
    (plain' : Expression.Unglued right)
    (same : (renumbered ⟨start, goal⟩).reverse = renumbered ⟨left, right⟩) :
    renumbered ⟨start, goal⟩ = renumbered ⟨right, left⟩ := by
  obtain ⟨ps, sepP, rfl⟩ := exists_separated unglued
  obtain ⟨qs, sepQ, rfl⟩ := exists_separated unglued'
  obtain ⟨as, sepA, rfl⟩ := exists_separated plain
  obtain ⟨bs, sepB, rfl⟩ := exists_separated plain'
  rw [renumbered_text sepP.reads sepQ.reads, renumbered_text sepA.reads sepB.reads] at same
  have first := aligned_of_numbered sepP sepB (congrArg Sides.right same)
  have second := aligned_of_numbered sepQ sepA (congrArg Sides.left same)
  obtain ⟨starts, goals⟩ := numbered_of_aligned first second
    (written_injOn _ fun v place => mem_names.2 place.symm)
    (written_injOn _ fun v place => mem_names.2 place)
  rw [renumbered_text sepP.reads sepQ.reads, renumbered_text sepB.reads sepA.reads, starts, goals]

theorem shape_append (t u : Text) : shape (t ++ u) = shape t ++ shape u :=
  List.filter_append ..

theorem shape_number {v : Text} : isNumberWord v = true ↔ v ≠ [] ∧ shape v = [] := by
  rw [isNumberWord_iff, shape, List.filter_eq_nil_iff]
  simp

theorem length_shape (ns : Numbering) (ps : Reading) : (shape (text ps)).length =
    (shape (numbered ns ps)).length + ((values ps).flatMap shape).length := by
  induction ps with
  | nil => rfl
  | cons p rest ih =>
    unfold numbered at ih ⊢
    cases p with
    | gap t =>
      simp only [text_cons, rename_cons, Part.rename, Part.text, shape_append, List.length_append,
        values, ih]
      omega
    | operand k v =>
      have none := (shape_number.1 (Text.isNumberWord_ofNat (ns.number v))).2
      simp only [text_cons, rename_cons, Part.rename, Part.text, shape_append, List.length_append,
        values, List.flatMap_cons, ih, none, List.length_nil]
      omega

theorem numbers_of_shape (reads : Reads false ps) {ns : Numbering}
    (same : shape (text ps) = shape (numbered ns ps)) : Numbers id ps := by
  intro v member
  have total := length_shape ns ps
  rw [same] at total
  have none : (values ps).flatMap shape = [] := List.eq_nil_of_length_eq_zero (by omega)
  obtain ⟨k, inside⟩ := mem_values.1 member
  obtain ⟨c, t, rfl, _⟩ := reads.operand_head inside
  exact shape_number.2 ⟨by simp, List.flatMap_eq_nil_iff.1 none _ member⟩

theorem separated_of_numbers (reads : Reads false ps) (numbers : Numbers id ps) : Separated ps := by
  refine ⟨reads, ?_⟩
  intro as u bs same
  have member : Part.operand .function u ∈ ps := by simp [same]
  have number : isNumberWord u = true := numbers u (mem_values.2 ⟨_, member⟩)
  rcases reads.operand_cases member with ⟨_, isCall⟩ | ⟨kind, _⟩ | ⟨kind, _⟩
  · rw [not_number_of_call isCall] at number
    cases number
  · cases kind
  · cases kind

theorem aligned_reread {ns : Numbering} (separated : Separated ps) (reads : Reads false as)
    (same : text as = numbered ns ps) (numbers : Numbers id as) : Aligned id ns.written as ps := by
  have again := separated_of_numbers reads numbers
  have chunks := again.reads.chunks_rename again.spaced fun v member =>
    isRun_of_number (numbers v member)
  rw [rename_id, same, separated.chunks_numbered] at chunks
  exact aligned_of_chunks again.clear separated.clear numbers (numbers_written _ _) chunks.symm

theorem renumbered_reverse (unglued : Expression.Unglued start) (unglued' : Expression.Unglued goal)
    (same : SameShape (renumbered ⟨start, goal⟩).reverse
      (renumbered (renumbered ⟨start, goal⟩).reverse)) :
    renumbered (renumbered ⟨start, goal⟩).reverse = renumbered ⟨goal, start⟩ := by
  obtain ⟨ps, sepP, rfl⟩ := exists_separated unglued
  obtain ⟨qs, sepQ, rfl⟩ := exists_separated unglued'
  rw [renumbered_text sepP.reads sepQ.reads] at same ⊢
  obtain ⟨ls, readsL, sameL⟩ := Reads.exists_of_text (numbered (names ps qs) ps) false
  obtain ⟨rs, readsR, sameR⟩ := Reads.exists_of_text (numbered (names ps qs) qs) false
  have reread : renumbered (Sides.reverse ⟨numbered (names ps qs) ps, numbered (names ps qs) qs⟩) =
      ⟨numbered (names rs ls) rs, numbered (names rs ls) ls⟩ := by
    rw [← sameL, ← sameR, Sides.reverse]
    exact renumbered_text readsR readsL
  rw [reread, ← sameL, ← sameR] at same
  have numbersR : Numbers id rs := numbers_of_shape readsR same.1
  have numbersL : Numbers id ls := numbers_of_shape readsL same.2
  have first := aligned_reread sepQ readsR sameR numbersR
  have second := aligned_reread sepP readsL sameL numbersL
  obtain ⟨goals, starts⟩ := numbered_of_aligned first second (Set.injOn_id _)
    (written_injOn _ fun v place => mem_names.2 place.symm)
  rw [reread, renumbered_text sepQ.reads sepP.reads, goals, starts]

end WholeSide
end OperatorCalculus
