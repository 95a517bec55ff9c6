import OperatorCalculus.Proofs.Latex.Reading

-- Blank lines and comments are passed over when the rules are read, but not when the proofs
-- are looked for: a marker in a comment opens or closes a block like any other. A comment
-- can be removed exactly where it leaves the block as it finds it.
namespace OperatorCalculus

namespace Source

variable {path line : Text} {before lines : List Text}

def isSpoken (line : Text) : Bool := !isSilent (Text.trim line)

def spoken (lines : List Text) : List Text := lines.filter isSpoken

def withoutSilent (document : Text) : Text := Text.join ['\n'] (spoken (Text.lines document))

-- Before each line that is read the same block is open, whether the comments are counted or
-- not. What they do among themselves does not matter.
def BlocksAgree (lines : List Text) : Prop :=
  ∀ i, (inRange : i < lines.length) → isSpoken lines[i] = true →
    ProofBlock.openAfter (spoken (lines.take i)) = ProofBlock.openAfter (lines.take i)

instance (lines : List Text) : Decidable (BlocksAgree lines) :=
  inferInstanceAs (Decidable (∀ i, (inRange : i < lines.length) → isSpoken lines[i] = true →
    ProofBlock.openAfter (spoken (lines.take i)) = ProofBlock.openAfter (lines.take i)))

theorem rules_withoutSilent (document path : Text) :
    rules (withoutSilent document) path = rulesOf (spoken (Text.lines document)) path := by
  unfold withoutSilent
  rw [← rulesOf_lines]
  cases rest : spoken (Text.lines document) with
  | nil => rfl
  | cons first more =>
    apply congrArg (rulesOf · path)
    apply Text.lines_join
    · intro l member
      rw [← rest] at member
      exact Text.not_mem_of_mem_splitOn (List.mem_filter.1 member).1
    · exact List.cons_ne_nil first more

theorem next_of_silent (silent : isSpoken line = false) (s : Reading) :
    s.next path line = ⟨ProofBlock.advance s.isOpen line, s.progress⟩ := by
  have unread : isSilent (Text.trim line) = true := by simpa [isSpoken] using silent
  unfold Reading.next
  rw [readLine_of_silent unread]

theorem spoken_concat (lines : List Text) (line : Text) :
    spoken (lines ++ [line]) = spoken lines ++ if isSpoken line then [line] else [] := by
  unfold spoken
  rw [List.filter_append]
  cases said : isSpoken line <;> simp [said]

theorem BlocksAgree.init (agree : BlocksAgree (lines ++ [line])) : BlocksAgree lines := by
  intro i inRange said
  have further : i < (lines ++ [line]).length := by
    rw [List.length_append]
    exact Nat.lt_add_right _ inRange
  have block := agree i further (by rwa [List.getElem_append_left inRange])
  rwa [List.take_append_of_le_length (Nat.le_of_lt inRange)] at block

theorem BlocksAgree.last (agree : BlocksAgree (lines ++ [line])) (said : isSpoken line = true) :
    ProofBlock.openAfter (spoken lines) = ProofBlock.openAfter lines := by
  have block := agree lines.length (by simp) (by simpa using said)
  rwa [List.take_left] at block

theorem read_spoken (agree : BlocksAgree lines) :
    (read path (spoken lines)).progress = (read path lines).progress := by
  induction lines using List.reverseRecOn with
  | nil => rfl
  | append_singleton lines line ih =>
    have earlier := ih agree.init
    rw [spoken_concat, read_concat]
    cases said : isSpoken line with
    | false =>
      rw [next_of_silent said]
      simpa using earlier
    | true =>
      rw [if_pos rfl, read_concat]
      unfold Reading.next
      rw [isOpen_read, isOpen_read, agree.last said, earlier]

theorem openAfter_spoken
    (unmarked : ∀ l ∈ lines, isSpoken l = false → ProofBlock.opens l = false ∧ ProofBlock.closes l = false) :
    ProofBlock.openAfter (spoken lines) = ProofBlock.openAfter lines := by
  induction lines using List.reverseRecOn with
  | nil => rfl
  | append_singleton lines line ih =>
    have earlier := ih fun l member => unmarked l (List.mem_append_left _ member)
    rw [spoken_concat, ProofBlock.openAfter_concat]
    cases said : isSpoken line with
    | false =>
      obtain ⟨noStart, noEnd⟩ := unmarked line (by simp) said
      rw [ProofBlock.advance_of_unmarked noStart noEnd]
      simpa using earlier
    | true => rw [if_pos rfl, ProofBlock.openAfter_concat, earlier]

def plainRule : Text := "\\[,i, \\Rq ,j,\\]".toList

theorem length_rules_plainRule (s : Reading) : (s.next path plainRule).progress.rules.length =
    s.progress.rules.length + if s.isOpen then 0 else 1 := by
  obtain ⟨isOpen, p⟩ := s
  cases isOpen with
  | true =>
    have hidden : visible? true plainRule = none := by decide
    have unread : readLine path true plainRule p = _ := readLine_of_hidden hidden
    exact congrArg (·.rules.length) unread
  | false =>
    have visible : visible? false plainRule = some plainRule := by decide
    have split_ : RuleLine.split? plainRule = some ⟨['i'], ['j'], false⟩ := by decide
    have unheaded : p.context.underHeadings plainRule = p.context := rfl
    have kept : p.context.drops ⟨['i'], ['j'], false⟩ = false := rfl
    have filed : readLine path false plainRule p = fileRule path ⟨['i'], ['j'], false⟩ p := by
      rw [readLine_of_visible visible, takeUp, unheaded, split_]
    have added := fileRule_eq path ⟨['i'], ['j'], false⟩ p
    rw [kept, ← filed] at added
    have counted := congrArg (·.rules.length) added
    exact counted.trans List.length_append

theorem silent_line_inert_iff (silent : isSpoken line = false) :
    (∀ after path, rulesOf (before ++ line :: after) path = rulesOf (before ++ after) path) ↔
      ProofBlock.advance (ProofBlock.openAfter before) line = ProofBlock.openAfter before := by
  have passed : ∀ path, (read path before).next path line =
      ⟨ProofBlock.advance (ProofBlock.openAfter before) line, (read path before).progress⟩ := by
    intro path
    rw [next_of_silent silent, isOpen_read]
  constructor
  · intro inert
    have same := congrArg List.length (inert [plainRule] [])
    rw [rulesOf_eq_read, rulesOf_eq_read, read_append, read_concat, List.foldl_cons, passed] at same
    have counts := (length_rules_plainRule _).symm.trans (same.trans (length_rules_plainRule _))
    have told := Nat.add_left_cancel counts
    rw [isOpen_read] at told
    have same_of_told : ∀ is_ was : Bool, (if is_ then 0 else 1) = (if was then 0 else 1) → is_ = was := by
      decide
    exact same_of_told _ _ told
  · intro unmoved after path
    rw [rulesOf_eq_read, rulesOf_eq_read, read_append, read_append, List.foldl_cons, passed, unmoved,
      ← isOpen_read path before]

-- The rules are those of the text without its blank lines and comments whenever the comments
-- leave the blocks alone where a line is read, in particular when no comment holds a marker.
-- A comment that moves a block where it stands shows in some text that goes on from there.
theorem rules_without_comments (document path : Text) :
    (BlocksAgree (Text.lines document) → rules (withoutSilent document) path = rules document path) ∧
    ((∀ l ∈ Text.lines document, isSpoken l = false →
        ProofBlock.opens l = false ∧ ProofBlock.closes l = false) → BlocksAgree (Text.lines document)) ∧
    (∀ before line, isSpoken line = false →
      ((∀ after path, rulesOf (before ++ line :: after) path = rulesOf (before ++ after) path) ↔
        ProofBlock.advance (ProofBlock.openAfter before) line = ProofBlock.openAfter before)) := by
  refine ⟨?_, ?_, fun before line => silent_line_inert_iff⟩
  · intro agree
    rw [rules_withoutSilent, ← rulesOf_lines, rulesOf_eq_read, rulesOf_eq_read, read_spoken agree]
  · intro unmarked i _ _
    apply openAfter_spoken
    exact fun l member => unmarked l (List.mem_of_mem_take member)

theorem rules_without_comments_of_proof :
    let document := "\\[,i \\Pu, \\Rq ,i \\Os,\\]\n% proof:\\\n% \\end\x7bmath\x7d\n\\[, \\Rq ,i \\Or,\\]".toList
    BlocksAgree (Text.lines document) ∧ (rules document "a.tex".toList).length = 2 ∧
      rules (withoutSilent document) "a.tex".toList = rules document "a.tex".toList := by
  intro document
  have agree : BlocksAgree (Text.lines document) := by decide +kernel
  exact ⟨agree, by decide +kernel, (rules_without_comments document _).1 agree⟩

-- The comment opens a block that nothing closes, and the rule behind it is lost.
theorem not_rules_without_comments :
    let document := "% proof:\\\n\\[,i \\Pu, \\Rq ,i \\Os,\\]".toList
    rules document "theorems.tex".toList = [] ∧
      (rules (withoutSilent document) "theorems.tex".toList).length = 1 := by
  decide +kernel

end Source
end OperatorCalculus
