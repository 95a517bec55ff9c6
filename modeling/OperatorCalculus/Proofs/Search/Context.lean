import OperatorCalculus.Proofs.Search.Exchange

-- A rule in a context. The rule is looked for under the numbers that it has on its own, so
-- it is found where the target gives its operands the same numbers: they must be the first
-- that the target numbers. An operand that the context brings in before them hides the rule.
namespace OperatorCalculus

def Span.shift {κ : Type} (n : Nat) (s : Span κ) : Span κ := { s with index := s.index + n }

namespace Reading

theorem tokens_shift (position n : Nat) (ps : Reading) :
    (tokens position ps).map (Span.shift n) = tokens (position + n) ps := by
  induction ps generalizing position with
  | nil => rfl
  | cons p rest ih =>
    cases p with
    | gap t => simp only [tokens, ih, Nat.add_right_comm]
    | operand k v => simp only [tokens, List.map_cons, ih, Nat.add_right_comm, Span.shift]

end Reading

namespace Expression

open Reading WholeSide

-- The operands of the whole are those of its three pieces, each where its piece stands.
def Composes (before middle after : Text) : Prop :=
  Operand.extract (before ++ middle ++ after) = Operand.extract before ++
    (Operand.extract middle).map (Span.shift before.length) ++
    (Operand.extract after).map (Span.shift (before.length + middle.length))

instance (before middle after : Text) : Decidable (Composes before middle after) :=
  inferInstanceAs (Decidable (_ = _))

variable {before middle after : Text}

theorem Composes.extract_text {bs ms as : Reading} (composes : Composes (text bs) (text ms) (text as))
    (left : Reads false bs) (own : Reads false ms) (right : Reads false as) :
    Operand.extract (text (bs ++ ms ++ as)) = Reading.tokens 0 (bs ++ ms ++ as) := by
  have whole : text (bs ++ ms ++ as) = text bs ++ text ms ++ text as := by simp
  rw [whole, composes, left.extract_text, own.extract_text, right.extract_text, tokens_shift,
    tokens_shift, tokens_append, tokens_append, text_append, List.length_append]

theorem Composes.renameOperands (composes : Composes before middle after) (f : Text → Text) :
    renameOperands f (before ++ middle ++ after) =
      renameOperands f before ++ renameOperands f middle ++ renameOperands f after := by
  obtain ⟨bs, left, rfl⟩ := Reads.exists_of_text before false
  obtain ⟨ms, own, rfl⟩ := Reads.exists_of_text middle false
  obtain ⟨as, right, rfl⟩ := Reads.exists_of_text after false
  have whole : Expression.renameOperands f (text (bs ++ ms ++ as)) =
      text (rename f (bs ++ ms ++ as)) := by
    rw [Expression.renameOperands, composes.extract_text left own right, replaceAll_text]
  rw [renameOperands_text left, renameOperands_text own, renameOperands_text right]
  simpa only [text_append, rename_append] using whole

theorem Composes.operands (composes : Composes before middle after) :
    operands (before ++ middle ++ after) = operands before ++ operands middle ++ operands after := by
  have same : Operand.extract (before ++ middle ++ after) = _ := composes
  rw [Expression.operands, same, List.map_append, List.map_append, List.map_map, List.map_map]
  rfl

theorem occurs_of_composes {left right : Text} (composes : Composes before left after)
    (composes' : Composes before right after) :
    Occurs id left right (before ++ left ++ after) (before ++ right ++ after) := fun f =>
  ⟨renameOperands f before, renameOperands f after, composes.renameOperands f,
    composes'.renameOperands f⟩

end Expression

namespace Expression

variable {before after left right start goal : Text}

theorem mem_numbering {v : Text} :
    v ∈ numbering left right ↔ v ∈ operands left ∨ v ∈ operands right := by
  simp [numbering, Numbering.mem_enterAll]

theorem keepsNumbers_of_first (first : numbering left right <+: numbering start goal) :
    KeepsNumbers id left right start goal := fun _ place =>
  Numbering.number_of_first first (mem_numbering.2 place)

theorem numbering_first (composes : Composes before left after)
    (composes' : Composes before right after) (bare : operands before = [])
    (behind : operands after = [] ∨ ∀ v ∈ operands right, v ∈ operands left) :
    numbering left right <+: numbering (before ++ left ++ after) (before ++ right ++ after) := by
  simp only [numbering]
  rw [composes.operands, composes'.operands, bare]
  cases behind with
  | inl empty =>
    rw [empty]
    simp
  | inr shared =>
    have own : Numbering.enterAll [] (operands left ++ operands right) =
        Numbering.enterAll [] (operands left) := by
      rw [Numbering.enterAll_append]
      exact Numbering.enterAll_of_mem fun v member => Numbering.mem_enterAll.2 (.inr (shared v member))
    rw [own, List.nil_append, List.nil_append, List.append_assoc, Numbering.enterAll_append]
    exact Numbering.prefix_enterAll _ _

end Expression
namespace Session

open Expression

theorem matched_iff_accepts {r : Rule} {start goal : Text} (text : ¬ Search.Blank start goal) :
    (decide [r] start goal).status = .matched ↔ r.Accepts start goal := by
  rw [decide_matched_iff]
  simp [text]

-- A rule in a context is found when its operands are the first that the target numbers, as
-- they are behind a context without operands; for rules as they are written, it is found
-- exactly when it is the whole target or stands in it with the numbers of its own.
theorem context_matched (r : Rule) (before after : Text)
    (filled : InContext.isBlankList r.left = false ∨ InContext.isBlankList r.right = false)
    (composes : Composes before r.left after) (composes' : Composes before r.right after)
    (text : ¬ Search.Blank (before ++ r.left ++ after) (before ++ r.right ++ after)) :
    let start := before ++ r.left ++ after
    let goal := before ++ r.right ++ after
    (numbering r.left r.right <+: numbering start goal ∨
        numbering r.right r.left <+: numbering start goal →
      (decide [r] start goal).status = .matched) ∧
    (operands before = [] → operands after = [] ∨ (∀ v ∈ operands r.right, v ∈ operands r.left) →
      (decide [r] start goal).status = .matched) ∧
    (r.Guarded → Unglued start → Unglued goal →
      ((decide [r] start goal).status = .matched ↔
        r.IsWhole start goal ∨ r.Substitutes start goal)) := by
  intro start goal
  have occurs : Occurs id r.left r.right start goal := occurs_of_composes composes composes'
  have accepted : numbering r.left r.right <+: numbering start goal ∨
      numbering r.right r.left <+: numbering start goal → r.Accepts start goal := by
    intro first
    have blanks := isBlankList_renumbered r.left r.right
    have blanks' := isBlankList_renumbered r.right r.left
    cases first with
    | inl forward =>
      refine .inl (infer?_isSome_cases.2 (.inr (.inr (.inr ⟨?_, ?_⟩))))
      · rw [blanks.1, blanks.2]
        exact filled
      · exact stands_of_keeps (.inl occurs) (keepsNumbers_of_first forward)
    | inr reverse =>
      refine .inr (infer?_isSome_cases.2 (.inr (.inr (.inr ⟨?_, ?_⟩))))
      · rw [blanks'.1, blanks'.2]
        exact filled.symm
      · exact stands_of_keeps (.inr occurs) (keepsNumbers_of_first reverse)
  refine ⟨fun first => (matched_iff_accepts text).2 (accepted first), ?_, ?_⟩
  · intro bare behind
    exact (matched_iff_accepts text).2
      (accepted (.inl (numbering_first composes composes' bare behind)))
  · intro guarded unglued unglued'
    rw [matched_iff_accepts text, Rule.accepts_iff guarded unglued unglued']

-- Behind the c of the context the i of the rule is the second operand of the target.
theorem not_context_matched : ¬ ∀ (r : Rule) (before after : Text),
    (InContext.isBlankList r.left = false ∨ InContext.isBlankList r.right = false) →
    Composes before r.left after → Composes before r.right after →
    ¬ Search.Blank (before ++ r.left ++ after) (before ++ r.right ++ after) →
    (decide [r] (before ++ r.left ++ after) (before ++ r.right ++ after)).status = .matched := by
  intro complete
  have text : ¬ Search.Blank ", c, i \\Os,".toList ", c, i \\On,".toList := by
    intro blank
    rcases blank with empty | empty <;> cases empty
  have forward : (infer? (WholeSide.renumbered ⟨", c, i \\Os,".toList, ", c, i \\On,".toList⟩)
      (WholeSide.renumbered ⟨", i \\Os,".toList, ", i \\On,".toList⟩)).isSome = false := by
    decide_cbv
  have reverse : (infer? (WholeSide.renumbered ⟨", c, i \\Os,".toList, ", c, i \\On,".toList⟩)
      (WholeSide.renumbered ⟨", i \\On,".toList, ", i \\Os,".toList⟩)).isSome = false := by
    decide_cbv
  have composes : Composes ", c".toList ", i \\Os,".toList [] := by decide_cbv
  have composes' : Composes ", c".toList ", i \\On,".toList [] := by decide_cbv
  have matched := complete (Rule.between ", i \\Os,".toList ", i \\On,".toList) ", c".toList []
    (.inl (by decide)) composes composes' text
  cases (matched_iff_accepts text).1 matched with
  | inl found => cases found.symm.trans forward
  | inr found => cases found.symm.trans reverse

theorem context_matched_behind :
    let r := Rule.between ", i \\Os,".toList ", i \\On,".toList
    (InContext.isBlankList r.left = false ∨ InContext.isBlankList r.right = false) ∧
      Composes [] r.left " c".toList ∧ Composes [] r.right " c".toList ∧
      ¬ Search.Blank ([] ++ r.left ++ " c".toList) ([] ++ r.right ++ " c".toList) ∧
      (decide [r] ([] ++ r.left ++ " c".toList) ([] ++ r.right ++ " c".toList)).status =
        .matched := by
  intro r
  have filled : InContext.isBlankList r.left = false ∨ InContext.isBlankList r.right = false :=
    .inl (by decide)
  have composes : Composes [] ", i \\Os,".toList " c".toList := by decide_cbv
  have composes' : Composes [] ", i \\On,".toList " c".toList := by decide_cbv
  have text : ¬ Search.Blank ([] ++ r.left ++ " c".toList) ([] ++ r.right ++ " c".toList) := by
    intro blank
    rcases blank with empty | empty <;> cases empty
  have bare : operands [] = [] := by decide_cbv
  have same : operands ", i \\On,".toList = operands ", i \\Os,".toList := by decide_cbv
  have shared : ∀ v ∈ operands r.right, v ∈ operands r.left := by
    intro v member
    rw [show operands r.right = operands r.left from same] at member
    exact member
  exact ⟨filled, composes, composes', text,
    (context_matched r [] " c".toList filled composes composes' text).2.1 bare (.inr shared)⟩

end Session
end OperatorCalculus
