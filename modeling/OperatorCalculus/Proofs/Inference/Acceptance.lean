import OperatorCalculus.Proofs.Expression.Exchange
import OperatorCalculus.Rule.Basic

namespace OperatorCalculus

open Scan Text Operand

def Span.Covers {κ : Type} (o : Span κ) (i : Nat) : Prop := o.index ≤ i ∧ i < o.stop

instance {κ : Type} (o : Span κ) (i : Nat) : Decidable (o.Covers i) :=
  inferInstanceAs (Decidable (o.index ≤ i ∧ i < o.stop))

namespace Expression

-- The first and the last character are marks and stand in no operand.
structure Wrapped (side : Text) : Prop where
  filled : side ≠ []
  first : ∀ c, side.head? = some c → isWord c = false
  last : ∀ c, side.getLast? = some c → isWord c = false
  outside : ∀ o ∈ Operand.extract side, ¬ o.Covers 0 ∧ ¬ o.Covers (side.length - 1)

def isWrapped (side : Text) : Bool :=
  !side.isEmpty && side.head?.all (fun c => !isWord c) && side.getLast?.all (fun c => !isWord c) &&
    (Operand.extract side).all fun o => !decide (o.Covers 0) && !decide (o.Covers (side.length - 1))

theorem isWrapped_iff {side : Text} : isWrapped side = true ↔ Wrapped side := by
  simp only [isWrapped, Bool.and_eq_true, Bool.not_eq_true', List.isEmpty_eq_false_iff,
    Option.all_eq_true, List.all_eq_true, decide_eq_false_iff_not]
  constructor
  · intro checked
    obtain ⟨⟨⟨filled, first⟩, last⟩, outside⟩ := checked
    exact ⟨filled, first, last, outside⟩
  · intro wrapped
    exact ⟨⟨⟨wrapped.filled, wrapped.first⟩, wrapped.last⟩, wrapped.outside⟩

instance (side : Text) : Decidable (Wrapped side) := decidable_of_iff _ isWrapped_iff

def IsInstance (left right start goal : Text) : Prop :=
  ∃ s before after, Matches s left right start goal ∧
    ((start = before ++ renameOperands s left ++ after ∧
        goal = before ++ renameOperands s right ++ after) ∨
      (start = before ++ renameOperands s right ++ after ∧
        goal = before ++ renameOperands s left ++ after))

theorem Matches.symm {s : Text → Text} {left right start goal : Text}
    (found : Matches s left right start goal) : Matches s right left start goal :=
  ⟨found.distinct.mono fun _ => Or.symm, fun v place => found.inside v place.symm⟩

theorem Matches.exchange {s : Text → Text} {left right start goal : Text}
    (found : Matches s left right start goal) : Matches s left right goal start :=
  ⟨found.distinct, fun v place => (found.inside v place).symm⟩

theorem IsInstance.symm {left right start goal : Text} (found : IsInstance left right start goal) :
    IsInstance right left start goal := by
  obtain ⟨s, before, after, found, stands⟩ := found
  exact ⟨s, before, after, found.symm, stands.symm⟩

end Expression

namespace Reading

open Expression

variable {ps qs as bs : Reading} {target rule : Numbering}

theorem numbered_ne_nil (reads : Reads false as) (filled : text as ≠ []) (ns : Numbering) :
    numbered ns as ≠ [] := by
  intro empty
  have all := reads.all_numbered ns (P := fun _ => false) fun _ _ => rfl
  rw [empty] at all
  obtain ⟨c, t, same⟩ := List.exists_cons_of_ne_nil filled
  rw [same] at all
  cases all

theorem last_of_wrapped (separated : Separated as) (wrapped : Wrapped (text as)) :
    ∃ before c, as = before ++ [.gap [c]] ∧ isWord c = false := by
  rcases List.eq_nil_or_concat as with rfl | ⟨before, p, rfl⟩
  · exact absurd rfl wrapped.filled
  · rw [List.concat_eq_append] at separated wrapped ⊢
    cases p with
    | operand k v =>
      obtain ⟨c, t, same, _⟩ := separated.reads.operand_head (k := k) (v := v) (by simp)
      have token : (⟨v, (text before).length, k⟩ : Token) ∈
          Operand.extract (text (before ++ [.operand k v])) := by
        rw [separated.reads.extract_text]
        exact mem_tokens.2 ⟨before, [], rfl, (Nat.zero_add _).symm⟩
      refine absurd ?_ (wrapped.outside _ token).2
      simp only [Span.Covers, Span.stop, text_append, text_cons, text_nil, Part.text,
        List.append_nil, List.length_append, same, List.length_cons]
      omega
    | gap t =>
      rcases separated.clear (.gap t) (by simp) with ⟨c, rfl, apart⟩ | ⟨run, _⟩
      · exact ⟨before, c, rfl, apart⟩
      · have front := List.dropLast_concat_getLast run.1
        have whole : text (before ++ [.gap t]) =
            (text before ++ t.dropLast) ++ [t.getLast run.1] := by
          rw [text_append, text_cons, text_nil, List.append_nil, Part.text, List.append_assoc, front]
        have apart := wrapped.last (t.getLast run.1) (by rw [whole, List.getLast?_concat])
        rw [run.2 _ (List.getLast_mem run.1)] at apart
        cases apart

theorem numbered_wrapped (separated : Separated as) (wrapped : Wrapped (text as))
    (ns : Numbering) : numbered ns as ≠ [] ∧ closesWord (numbered ns as) = true ∧
      opensWord (behind none (numbered ns as)) = true := by
  refine ⟨numbered_ne_nil separated.reads wrapped.filled ns, ?_, ?_⟩
  · have runs : ∀ v ∈ values as, IsRun (ns.written v) := fun v _ =>
      isRun_of_number (isNumberWord_ofNat _)
    have same : closesWord (numbered ns as) = closesWord (text as) :=
      closesWord_rename (separated.reads.headsKept_of_runs runs)
    rw [same]
    obtain ⟨c, t, head⟩ := List.exists_cons_of_ne_nil wrapped.filled
    rw [head, closesWord_cons, wrapped.first c (by rw [head]; rfl)]
    rfl
  · obtain ⟨before, c, rfl, apart⟩ := last_of_wrapped separated wrapped
    have whole : numbered ns (before ++ [.gap [c]]) = numbered ns before ++ [c] := by
      simp [numbered, Part.rename, Part.text]
    rw [whole, behind_concat, opensWord, apart]
    rfl

def StandsInChunks (target rule : Sides) : Prop :=
  ∃ before after, target.left.chunks = before ++ rule.left.chunks ++ after ∧
    target.right.chunks = before ++ rule.right.chunks ++ after

theorem standsInChunks_of_eq {target rule : Sides} (same : target = rule) :
    StandsInChunks target rule :=
  ⟨[], [], by rw [same]; simp, by rw [same]; simp⟩

theorem standsInChunks_of_stands (left : Separated as) (right : Separated bs)
    (wrapped : Wrapped (text as)) (wrapped' : Wrapped (text bs)) {forms : Sides}
    (stands : InContext.Stands forms ⟨numbered rule as, numbered rule bs⟩) :
    StandsInChunks forms ⟨numbered rule as, numbered rule bs⟩ := by
  obtain ⟨before, after, first, second⟩ := stands
  obtain ⟨filled, closed, opened⟩ := numbered_wrapped left wrapped rule
  obtain ⟨filled', closed', opened'⟩ := numbered_wrapped right wrapped' rule
  refine ⟨before.chunks, after.chunks, ?_, ?_⟩
  · rw [first]
    exact chunks_between filled closed opened
  · rw [second]
    exact chunks_between filled' closed' opened'

theorem occurs_of_standsInChunks (start : Separated ps) (goal : Separated qs) (left : Separated as)
    (right : Separated bs) (inside : ∀ v, v ∈ values ps ∨ v ∈ values qs → v ∈ target)
    (inRule : ∀ v, v ∈ values as ∨ v ∈ values bs → v ∈ rule)
    (stands : StandsInChunks ⟨numbered target ps, numbered target qs⟩
      ⟨numbered rule as, numbered rule bs⟩) :
    ∃ s, Matches s (text as) (text bs) (text ps) (text qs) ∧
      Occurs s (text as) (text bs) (text ps) (text qs) ∧
      ∀ v, v ∈ values as ∨ v ∈ values bs → target.number (s v) = rule.number v := by
  obtain ⟨before, after, first, second⟩ := stands
  obtain ⟨occurs, inLeft, inRight⟩ := occurs_of_chunks start goal left right inside first second
  have kept : ∀ v, v ∈ values as ∨ v ∈ values bs →
      target.number (Numbering.restored target rule v) = rule.number v := by
    intro v place
    cases place with
    | inl member => exact (inLeft v member).2
    | inr member => exact (inRight v member).2
  refine ⟨Numbering.restored target rule, ⟨?_, ?_⟩, occurs, kept⟩
  · rw [operands_text left.reads, operands_text right.reads]
    intro v inV w inW same
    have numbers := (kept v inV).symm.trans ((congrArg target.number same).trans (kept w inW))
    exact Numbering.number_inj (inRule v inV) numbers
  · rw [operands_text left.reads, operands_text right.reads, operands_text start.reads,
      operands_text goal.reads]
    intro v place
    cases place with
    | inl member => exact .inl (inLeft v member).1
    | inr member => exact .inr (inRight v member).1

end Reading

namespace Expression

open Reading WholeSide

variable {s : Text → Text} {start goal left right : Text}

theorem renameOperands_id (e : Text) : renameOperands id e = e := by
  obtain ⟨ps, reads, rfl⟩ := Reads.exists_of_text e false
  rw [renameOperands_text reads, rename_id]

theorem isInstance_of_occurs (found : Matches s left right start goal)
    (occurs : Occurs s left right start goal) : IsInstance left right start goal := by
  obtain ⟨before, after, first, second⟩ := occurs id
  rw [renameOperands_id] at first second
  exact ⟨s, before, after, found, .inl ⟨first, second⟩⟩

theorem isInstance_of_standsInChunks (unglued : Unglued start) (unglued' : Unglued goal)
    (plain : Unglued left) (plain' : Unglued right)
    (stands : StandsInChunks (renumbered ⟨start, goal⟩) (renumbered ⟨left, right⟩) ∨
      StandsInChunks (renumbered ⟨start, goal⟩) (renumbered ⟨left, right⟩).reverse) :
    IsInstance left right start goal := by
  obtain ⟨ps, sepP, rfl⟩ := exists_separated unglued
  obtain ⟨qs, sepQ, rfl⟩ := exists_separated unglued'
  obtain ⟨as, sepA, rfl⟩ := exists_separated plain
  obtain ⟨bs, sepB, rfl⟩ := exists_separated plain'
  rw [renumbered_text sepP.reads sepQ.reads, renumbered_text sepA.reads sepB.reads] at stands
  have inside : ∀ v, v ∈ values ps ∨ v ∈ values qs → v ∈ names ps qs := fun _ => mem_names.2
  have inRule : ∀ v, v ∈ values as ∨ v ∈ values bs → v ∈ names as bs := fun _ => mem_names.2
  cases stands with
  | inl forward =>
    obtain ⟨s, found, occurs, _⟩ :=
      occurs_of_standsInChunks sepP sepQ sepA sepB inside inRule forward
    exact isInstance_of_occurs found occurs
  | inr backward =>
    obtain ⟨s, found, occurs, _⟩ :=
      occurs_of_standsInChunks sepP sepQ sepB sepA inside (fun v place => inRule v place.symm) backward
    exact (isInstance_of_occurs found occurs).symm

theorem IsInstance.exchange (found : IsInstance left right goal start) :
    IsInstance left right start goal := by
  obtain ⟨s, before, after, found, stands⟩ := found
  refine ⟨s, before, after, found.exchange, ?_⟩
  rcases stands with ⟨first, second⟩ | ⟨first, second⟩
  · exact .inr ⟨second, first⟩
  · exact .inl ⟨second, first⟩

theorem standsInChunks_of_wrapped {forms : Sides} (plain : Unglued left) (plain' : Unglued right)
    (wrapped : Wrapped left) (wrapped' : Wrapped right)
    (stands : InContext.Stands forms (renumbered ⟨left, right⟩) ∨
      InContext.Stands forms (renumbered ⟨left, right⟩).reverse) :
    StandsInChunks forms (renumbered ⟨left, right⟩) ∨
      StandsInChunks forms (renumbered ⟨left, right⟩).reverse := by
  obtain ⟨as, sepA, rfl⟩ := exists_separated plain
  obtain ⟨bs, sepB, rfl⟩ := exists_separated plain'
  rw [renumbered_text sepA.reads sepB.reads] at stands ⊢
  cases stands with
  | inl forward => exact .inl (standsInChunks_of_stands sepA sepB wrapped wrapped' forward)
  | inr backward => exact .inr (standsInChunks_of_stands sepB sepA wrapped' wrapped backward)

theorem isInstance_of_infer (unglued : Unglued start) (unglued' : Unglued goal)
    (plain : Unglued left) (plain' : Unglued right) (wrapped : Wrapped left)
    (wrapped' : Wrapped right)
    (accepted : (infer? (renumbered ⟨start, goal⟩) (renumbered ⟨left, right⟩)).isSome = true) :
    IsInstance left right start goal := by
  rcases infer?_isSome_cases.1 accepted with same | reversed | ⟨shapes, again⟩ | ⟨_, stands⟩
  · exact isInstance_of_standsInChunks unglued unglued' plain plain' (.inl (standsInChunks_of_eq same))
  · have same : renumbered ⟨start, goal⟩ = (renumbered ⟨left, right⟩).reverse := by
      rw [← reversed]
      rfl
    exact isInstance_of_standsInChunks unglued unglued' plain plain' (.inr (standsInChunks_of_eq same))
  · rw [← again] at shapes
    have exchanged := (renumbered_reverse unglued unglued' shapes).symm.trans again
    exact (isInstance_of_standsInChunks unglued' unglued plain plain'
      (.inl (standsInChunks_of_eq exchanged))).exchange
  · exact isInstance_of_standsInChunks unglued unglued' plain plain'
      (standsInChunks_of_wrapped plain plain' wrapped wrapped' stands)

-- The pair stands in the target, one way round or the other, and no operand has another
-- number there than in the pair.
def StandsNumbered (left right start goal : Text) : Prop :=
  ∃ s, Matches s left right start goal ∧ KeepsNumbers s left right start goal ∧
    (Occurs s left right start goal ∨ Occurs s right left start goal)

theorem stands_of_occurs {ps qs as bs : Reading} {target rule : Numbering}
    (start : Reads false ps) (goal : Reads false qs) (left : Reads false as)
    (right : Reads false bs) (occurs : Occurs s (text as) (text bs) (text ps) (text qs))
    (kept : ∀ v, v ∈ values as ∨ v ∈ values bs → target.number (s v) = rule.number v) :
    InContext.Stands ⟨numbered target ps, numbered target qs⟩
      ⟨numbered rule as, numbered rule bs⟩ := by
  obtain ⟨before, after, first, second⟩ := occurs target.written
  have written : ∀ v, v ∈ values as ∨ v ∈ values bs →
      (target.written ∘ s) v = rule.written v := by
    intro v place
    exact congrArg Text.ofNat (kept v place)
  rw [renameOperands_text start, renameOperands_text left,
    rename_congr fun v member => written v (.inl member)] at first
  rw [renameOperands_text goal, renameOperands_text right,
    rename_congr fun v member => written v (.inr member)] at second
  exact ⟨before, after, first, second⟩

theorem stands_of_keeps (occurs : Occurs s left right start goal ∨ Occurs s right left start goal)
    (kept : KeepsNumbers s left right start goal) :
    InContext.Stands (renumbered ⟨start, goal⟩) (renumbered ⟨left, right⟩) ∨
      InContext.Stands (renumbered ⟨start, goal⟩) (renumbered ⟨left, right⟩).reverse := by
  obtain ⟨ps, readsP, rfl⟩ := Reads.exists_of_text start false
  obtain ⟨qs, readsQ, rfl⟩ := Reads.exists_of_text goal false
  obtain ⟨as, readsA, rfl⟩ := Reads.exists_of_text left false
  obtain ⟨bs, readsB, rfl⟩ := Reads.exists_of_text right false
  rw [KeepsNumbers, numbering_text readsP readsQ, numbering_text readsA readsB,
    operands_text readsA, operands_text readsB] at kept
  rw [renumbered_text readsP readsQ, renumbered_text readsA readsB]
  cases occurs with
  | inl forward => exact .inl (stands_of_occurs readsP readsQ readsA readsB forward kept)
  | inr backward =>
    exact .inr (stands_of_occurs readsP readsQ readsB readsA backward fun v place =>
      kept v place.symm)

theorem stands_iff (unglued : Unglued start) (unglued' : Unglued goal) (plain : Unglued left)
    (plain' : Unglued right) (wrapped : Wrapped left) (wrapped' : Wrapped right) :
    (InContext.Stands (renumbered ⟨start, goal⟩) (renumbered ⟨left, right⟩) ∨
      InContext.Stands (renumbered ⟨start, goal⟩) (renumbered ⟨left, right⟩).reverse) ↔
      StandsNumbered left right start goal := by
  constructor
  · intro stands
    obtain ⟨ps, sepP, rfl⟩ := exists_separated unglued
    obtain ⟨qs, sepQ, rfl⟩ := exists_separated unglued'
    obtain ⟨as, sepA, rfl⟩ := exists_separated plain
    obtain ⟨bs, sepB, rfl⟩ := exists_separated plain'
    have numbers : ∀ s, KeepsNumbers s (text as) (text bs) (text ps) (text qs) ↔
        ∀ v, v ∈ values as ∨ v ∈ values bs →
          (names ps qs).number (s v) = (names as bs).number v := by
      intro s
      rw [KeepsNumbers, numbering_text sepP.reads sepQ.reads, numbering_text sepA.reads sepB.reads,
        operands_text sepA.reads, operands_text sepB.reads]
    rw [renumbered_text sepP.reads sepQ.reads, renumbered_text sepA.reads sepB.reads] at stands
    have inside : ∀ v, v ∈ values ps ∨ v ∈ values qs → v ∈ names ps qs := fun _ => mem_names.2
    have inRule : ∀ v, v ∈ values as ∨ v ∈ values bs → v ∈ names as bs := fun _ => mem_names.2
    cases stands with
    | inl forward =>
      obtain ⟨s, found, occurs, kept⟩ := occurs_of_standsInChunks sepP sepQ sepA sepB inside inRule
        (standsInChunks_of_stands sepA sepB wrapped wrapped' forward)
      exact ⟨s, found, (numbers s).2 kept, .inl occurs⟩
    | inr backward =>
      obtain ⟨s, found, occurs, kept⟩ := occurs_of_standsInChunks sepP sepQ sepB sepA inside
        (fun v place => inRule v place.symm)
        (standsInChunks_of_stands sepB sepA wrapped' wrapped backward)
      exact ⟨s, found.symm, (numbers s).2 fun v place => kept v place.symm, .inr occurs⟩
  · intro stands
    obtain ⟨s, _, kept, occurs⟩ := stands
    exact stands_of_keeps occurs kept

theorem isBlankList_eq (t : Text) :
    InContext.isBlankList t = t.all fun c => c == ',' || Text.isBlank c := by
  rw [InContext.isBlankList, Text.isEmpty_trim, List.all_filter]
  congr 1
  funext c
  cases comma : c == ',' <;> simp [bne, comma]

theorem isBlankList_renumbered (left right : Text) :
    InContext.isBlankList (renumbered ⟨left, right⟩).left = InContext.isBlankList left ∧
      InContext.isBlankList (renumbered ⟨left, right⟩).right = InContext.isBlankList right := by
  obtain ⟨as, readsA, rfl⟩ := Reads.exists_of_text left false
  obtain ⟨bs, readsB, rfl⟩ := Reads.exists_of_text right false
  have apart : ∀ c, isWord c = true → (c == ',' || Text.isBlank c) = false := by
    intro c word
    have notComma : (c == ',') = false := by
      cases comma : c == ',' with
      | false => rfl
      | true =>
        rw [eq_of_beq comma] at word
        cases word
    rw [notComma, Text.isBlank_of_isWord word]
    rfl
  rw [renumbered_text readsA readsB]
  simp only [isBlankList_eq]
  exact ⟨readsA.all_numbered _ apart, readsB.all_numbered _ apart⟩

def IsWhole (left right start goal : Text) : Prop :=
  renumbered ⟨start, goal⟩ = renumbered ⟨left, right⟩

theorem infer_iff (unglued : Unglued start) (unglued' : Unglued goal) (plain : Unglued left)
    (plain' : Unglued right) (wrapped : Wrapped left) (wrapped' : Wrapped right) :
    ((infer? (renumbered ⟨start, goal⟩) (renumbered ⟨left, right⟩)).isSome = true ∨
        IsWhole right left start goal) ↔
      IsWhole left right start goal ∨ IsWhole right left start goal ∨
        ((InContext.isBlankList left = false ∨ InContext.isBlankList right = false) ∧
          StandsNumbered left right start goal) := by
  have blanks := isBlankList_renumbered left right
  have cases_ := @infer?_isSome_cases (renumbered ⟨start, goal⟩) (renumbered ⟨left, right⟩)
  rw [blanks.1, blanks.2, stands_iff unglued unglued' plain plain' wrapped wrapped'] at cases_
  constructor
  · intro accepted
    cases accepted with
    | inl found =>
      rcases cases_.1 found with same | reversed | ⟨shapes, again⟩ | substituted
      · exact .inl same
      · exact .inr (.inl (renumbered_of_reverse unglued unglued' plain plain' reversed))
      · rw [← again] at shapes
        have exchanged := (renumbered_reverse unglued unglued' shapes).symm.trans again
        exact .inr (.inl (renumbered_exchange unglued' unglued plain plain' exchanged))
      · exact .inr (.inr substituted)
    | inr reversed => exact .inr (.inl reversed)
  · intro found
    rcases found with same | reversed | substituted
    · exact .inl (cases_.2 (.inl same))
    · exact .inr reversed
    · exact .inl (cases_.2 (.inr (.inr (.inr substituted))))

end Expression

namespace Rule

open Expression

-- Sides as the rule format writes them: between marks, and no call touching a word.
structure Guarded (r : Rule) : Prop where
  left : Unglued r.left
  right : Unglued r.right
  leftWrapped : Wrapped r.left
  rightWrapped : Wrapped r.right

end Rule
end OperatorCalculus
