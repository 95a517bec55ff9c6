import OperatorCalculus.Proofs.Expression.Chunks

namespace OperatorCalculus

open Scan Text Operand

namespace Expression

def operands (e : Text) : List Text := (Operand.extract e).map Span.value

def renameOperands (s : Text → Text) (e : Text) : Text := replaceAll s (Operand.extract e) e

-- No letter, digit or underscore touches a call.
def Unglued (e : Text) : Prop :=
  ∀ o ∈ Operand.extract e, o.kind = .function →
    opensWord (charBefore? e o.index) = true ∧ closesWord (e.drop o.stop) = true

def isUnglued (e : Text) : Bool :=
  (Operand.extract e).all fun o => o.kind != .function ||
    (opensWord (charBefore? e o.index) && closesWord (e.drop o.stop))

theorem isUnglued_iff {e : Text} : isUnglued e = true ↔ Unglued e := by
  simp only [isUnglued, Unglued, List.all_eq_true, Bool.or_eq_true, bne_iff_ne, ne_eq,
    Bool.and_eq_true]
  constructor
  · intro all o member kind
    exact (all o member).resolve_left fun other => other kind
  · intro all o member
    by_cases kind : o.kind = .function
    · exact .inr (all o member kind)
    · exact .inl kind

instance (e : Text) : Decidable (Unglued e) := decidable_of_iff _ isUnglued_iff

-- A pair of expressions in one context, with one renaming for the operands of both. The
-- operands of the pair stand where operands of the target stand: the pair is still there
-- when those are renamed in any way.
def Occurs (s : Text → Text) (left right start goal : Text) : Prop :=
  ∀ f : Text → Text, ∃ before after,
    renameOperands f start = before ++ renameOperands (f ∘ s) left ++ after ∧
      renameOperands f goal = before ++ renameOperands (f ∘ s) right ++ after

structure Matches (s : Text → Text) (left right start goal : Text) : Prop where
  distinct : Set.InjOn s {v | v ∈ operands left ∨ v ∈ operands right}
  inside : ∀ v, v ∈ operands left ∨ v ∈ operands right → s v ∈ operands start ∨ s v ∈ operands goal

def numbering (left right : Text) : Numbering :=
  Numbering.enterAll [] (operands left ++ operands right)

def KeepsNumbers (s : Text → Text) (left right start goal : Text) : Prop :=
  ∀ v, v ∈ operands left ∨ v ∈ operands right →
    (numbering start goal).number (s v) = (numbering left right).number v

end Expression

namespace Numbering

def written (ns : Numbering) (v : Text) : Text := Text.ofNat (ns.number v)

-- The value that has in the one numbering the number that the given one has in the other.
def restored (target rule : Numbering) (v : Text) : Text := target.getD (rule.idxOf v) []

variable {target rule : Numbering} {u v : Text}

theorem written_eq (same : rule.written v = target.written u) : rule.idxOf v = target.idxOf u :=
  Nat.add_right_cancel (Text.ofNat_injective same)

theorem written_inj {ns : Numbering} (member : v ∈ ns) (same : ns.written v = ns.written u) : v = u :=
  number_inj member (Text.ofNat_injective same)

theorem restored_eq (member : u ∈ target) (same : rule.written v = target.written u) :
    restored target rule v = u := by
  have inside := List.idxOf_lt_length_of_mem member
  have at_ : target[target.idxOf u] = u := List.getElem_idxOf inside
  rw [restored, written_eq same, List.getD_eq_getElem?_getD, List.getElem?_eq_getElem inside, at_]
  rfl

end Numbering

namespace Reading

variable {ps qs : Reading}

theorem operands_text (reads : Reads false ps) : Expression.operands (text ps) = values ps := by
  rw [Expression.operands, reads.extract_text, map_value_tokens]

theorem renameOperands_text (reads : Reads false ps) (s : Text → Text) :
    Expression.renameOperands s (text ps) = text (rename s ps) := by
  rw [Expression.renameOperands, reads.extract_text, replaceAll_text]

structure Separated (ps : Reading) : Prop where
  reads : Reads false ps
  spaced : Spaced none ps

theorem exists_separated {e : Text} (unglued : Expression.Unglued e) :
    ∃ ps, Separated ps ∧ text ps = e := by
  obtain ⟨ps, reads, rfl⟩ := Reads.exists_of_text e false
  refine ⟨ps, ⟨reads, ?_⟩, rfl⟩
  rintro as u bs rfl
  have token : (⟨u, (text as).length, .function⟩ : Token) ∈
      Operand.extract (text (as ++ .operand .function u :: bs)) := by
    rw [reads.extract_text]
    exact mem_tokens.2 ⟨as, bs, rfl, (Nat.zero_add _).symm⟩
  obtain ⟨opens, closes⟩ := unglued _ token rfl
  have whole : text (as ++ .operand .function u :: bs) = text as ++ (u ++ text bs) := by
    simp [Part.text]
  have rest : (text as ++ (u ++ text bs)).drop ((text as).length + u.length) = text bs := by
    rw [← List.append_assoc, ← List.length_append, List.drop_left]
  rw [whole, charBefore?_append] at opens
  rw [whole, Span.stop, rest] at closes
  exact ⟨opens, closes⟩

theorem numbers_written (ns : Numbering) (ps : Reading) : Numbers ns.written ps :=
  fun _ _ => isNumberWord_ofNat _

theorem Separated.clear (separated : Separated ps) : Clear ps :=
  separated.reads.clear_of_spaced separated.spaced

theorem Separated.chunks_numbered (separated : Separated ps) (ns : Numbering) :
    (numbered ns ps).chunks = ps.map (Part.chunk ns.written) :=
  separated.reads.chunks_rename separated.spaced fun _ _ => isRun_of_number (isNumberWord_ofNat _)

theorem numbering_text (left : Reads false ps) (right : Reads false qs) :
    Expression.numbering (text ps) (text qs) = names ps qs := by
  rw [Expression.numbering, operands_text left, operands_text right]
  rfl

theorem split_of_chunks {as : Reading} {target rule : Numbering} {before after : List Chunk}
    (separated : Separated ps) (clear : Clear as)
    (same : ps.map (Part.chunk target.written) =
      before ++ as.map (Part.chunk rule.written) ++ after) :
    ∃ front middle back, ps = front ++ middle ++ back ∧ Clear front ∧ Clear back ∧
      front.map (Part.chunk target.written) = before ∧
      back.map (Part.chunk target.written) = after ∧
      Aligned rule.written target.written as middle := by
  obtain ⟨outer, back, rfl, first, last⟩ := List.map_eq_append_iff.1 same
  obtain ⟨front, middle, rfl, opening, own⟩ := List.map_eq_append_iff.1 first
  have clearPs := separated.clear
  refine ⟨front, middle, back, rfl, fun p member => clearPs p (by simp [member]),
    fun p member => clearPs p (by simp [member]), opening, last, ?_⟩
  exact aligned_of_chunks clear (fun p member => clearPs p (by simp [member]))
    (numbers_written rule as) (numbers_written target middle) own.symm

theorem text_restored {as middle : Reading} {target rule : Numbering}
    (own : Aligned rule.written target.written as middle)
    (inside : ∀ v ∈ values middle, v ∈ target) (f : Text → Text) :
    text (rename (f ∘ Numbering.restored target rule) as) = text (rename f middle) :=
  own.text_rename fun _ _ u inM same => congrArg f (Numbering.restored_eq (inside u inM) same)

theorem restored_values {as middle : Reading} {target rule : Numbering}
    (own : Aligned rule.written target.written as middle)
    (inside : ∀ v ∈ values middle, v ∈ target) {v : Text} (member : v ∈ values as) :
    Numbering.restored target rule v ∈ values middle ∧
      target.number (Numbering.restored target rule v) = rule.number v := by
  obtain ⟨u, place, same⟩ := own.image_of member
  rw [Numbering.restored_eq (inside u place) same]
  exact ⟨place, (Text.ofNat_injective same).symm⟩

theorem text_of_forms {front front' : Reading} {target : Numbering} (clear : Clear front)
    (clear' : Clear front') (inside : ∀ v ∈ values front, v ∈ target)
    (same : front.map (Part.chunk target.written) = front'.map (Part.chunk target.written))
    (f : Text → Text) : text (rename f front) = text (rename f front') := by
  have aligned := aligned_of_chunks clear clear' (numbers_written target front)
    (numbers_written target front') same
  apply aligned.text_rename
  intro v member u _ written
  rw [Numbering.written_inj (inside v member) written]

-- Two forms that hold the forms of a pair in one context come from texts that hold the
-- pair itself. The context is the same text on both sides, since its numbers are.
theorem occurs_of_chunks {as bs : Reading} {target rule : Numbering} {before after : List Chunk}
    (start : Separated ps) (goal : Separated qs) (left : Separated as) (right : Separated bs)
    (inside : ∀ v, v ∈ values ps ∨ v ∈ values qs → v ∈ target)
    (first : (numbered target ps).chunks = before ++ (numbered rule as).chunks ++ after)
    (second : (numbered target qs).chunks = before ++ (numbered rule bs).chunks ++ after) :
    let s := Numbering.restored target rule
    Expression.Occurs s (text as) (text bs) (text ps) (text qs) ∧
      (∀ v ∈ values as, s v ∈ values ps ∧ target.number (s v) = rule.number v) ∧
      ∀ v ∈ values bs, s v ∈ values qs ∧ target.number (s v) = rule.number v := by
  intro s
  rw [start.chunks_numbered, left.chunks_numbered] at first
  rw [goal.chunks_numbered, right.chunks_numbered] at second
  obtain ⟨front, middle, back, rfl, clearF, clearB, opening, closing, own⟩ :=
    split_of_chunks start left.clear first
  obtain ⟨front', middle', back', rfl, clearF', clearB', opening', closing', own'⟩ :=
    split_of_chunks goal right.clear second
  have inFront : ∀ v ∈ values front, v ∈ target := fun v member =>
    inside v (.inl (by simp [values_append, member]))
  have inBack : ∀ v ∈ values back, v ∈ target := fun v member =>
    inside v (.inl (by simp [values_append, member]))
  have inMiddle : ∀ v ∈ values middle, v ∈ target := fun v member =>
    inside v (.inl (by simp [values_append, member]))
  have inMiddle' : ∀ v ∈ values middle', v ∈ target := fun v member =>
    inside v (.inr (by simp [values_append, member]))
  refine ⟨?_, ?_, ?_⟩
  -- The context is the same text on both sides, since its numbers are.
  · intro f
    have sameFront := text_of_forms clearF clearF' inFront (opening.trans opening'.symm) f
    have sameBack := text_of_forms clearB clearB' inBack (closing.trans closing'.symm) f
    refine ⟨text (rename f front), text (rename f back), ?_, ?_⟩
    · rw [renameOperands_text start.reads, renameOperands_text left.reads,
        text_restored own inMiddle, rename_append, rename_append, text_append, text_append]
    · rw [renameOperands_text goal.reads, renameOperands_text right.reads,
        text_restored own' inMiddle', sameFront, sameBack, rename_append, rename_append,
        text_append, text_append]
  · intro v member
    obtain ⟨place, number⟩ := restored_values own inMiddle member
    exact ⟨by simp [values_append, s, place], number⟩
  · intro v member
    obtain ⟨place, number⟩ := restored_values own' inMiddle' member
    exact ⟨by simp [values_append, s, place], number⟩

end Reading
end OperatorCalculus
