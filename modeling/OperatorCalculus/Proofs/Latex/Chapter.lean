import OperatorCalculus.Proofs.Latex.Reading

namespace OperatorCalculus

namespace Source

variable {path : Text}

def renumbered (path : Text) (first : Nat) (rules : List Rule) : List Rule :=
  rules.mapIdx fun k r => { r with id := Naming.id path (first + k : Nat) r.left r.right }

theorem renumbered_concat (first : Nat) (rules : List Rule) (r : Rule) :
    renumbered path first (rules ++ [r]) = renumbered path first rules ++
      [{ r with id := Naming.id path (first + rules.length : Nat) r.left r.right }] :=
  List.mapIdx_concat

theorem length_renumbered (first : Nat) (rules : List Rule) :
    (renumbered path first rules).length = rules.length :=
  List.length_mapIdx

def Progress.behind (path : Text) (earlier : List Rule) (p : Progress) : Progress where
  context := p.context
  rules := earlier ++ renumbered path earlier.length p.rules

theorem fileRule_behind (earlier : List Rule) (sides : RuleLine.Sides) (p : Progress) :
    fileRule path sides (p.behind path earlier) = (fileRule path sides p).behind path earlier := by
  have count : (p.behind path earlier).rules.length = earlier.length + p.rules.length := by
    rw [Progress.behind, List.length_append, length_renumbered]
  rw [fileRule_eq, fileRule_eq, count]
  unfold Progress.behind
  split
  · rfl
  · rw [renumbered_concat, List.append_assoc, Context.ruleOf_index _ _ path p.rules.length]

theorem readLine_behind (earlier : List Rule) (inProof : Bool) (raw : Text) (p : Progress) :
    readLine path inProof raw (p.behind path earlier) =
      (readLine path inProof raw p).behind path earlier := by
  cases visible : visible? inProof raw with
  | none =>
    rw [readLine_of_hidden visible, readLine_of_hidden visible]
    rfl
  | some line =>
    rw [readLine_of_visible visible, readLine_of_visible visible]
    unfold takeUp
    cases RuleLine.split? line with
    | none => rfl
    | some sides => exact fileRule_behind earlier sides { p with context := p.context.underHeadings line }

theorem reading_behind (path : Text) (earlier : List Rule) (lines : List Text) (s t : Reading)
    (sameBlock : s.isOpen = t.isOpen) (follows : s.progress = t.progress.behind path earlier) :
    (lines.foldl (Reading.next path) s).progress =
      (lines.foldl (Reading.next path) t).progress.behind path earlier := by
  induction lines generalizing s t with
  | nil => exact follows
  | cons line rest ih =>
    apply ih
    · unfold Reading.next
      rw [sameBlock]
    · unfold Reading.next
      rw [sameBlock, follows, readLine_behind]

theorem renumbered_rulesOf (lines : List Text) : renumbered path 0 (rulesOf lines path) = rulesOf lines path := by
  have same := reading_behind path [] lines .start .start rfl rfl
  rw [rulesOf_eq_read]
  exact (congrArg Progress.rules same).symm

theorem Context.underChapter_of_title {line title : Text} (c : Context)
    (titled : Heading.title? Heading.chapterCommand line = some title) :
    c.underChapter line = ⟨title, [], [], [], [], 0, false⟩ := by
  unfold underChapter
  rw [titled]
  rfl

theorem Context.underHeadings_of_chapter {line : Text} (c d : Context)
    (titled : (Heading.title? Heading.chapterCommand line).isSome = true) :
    c.underHeadings line = d.underHeadings line := by
  obtain ⟨title, found⟩ := Option.isSome_iff_exists.1 titled
  unfold underHeadings
  rw [c.underChapter_of_title found, d.underChapter_of_title found]

theorem takeUp_of_chapter {line : Text} (p : Progress)
    (titled : (Heading.title? Heading.chapterCommand line).isSome = true) :
    takeUp path line p = (takeUp path line ⟨.initial, []⟩).behind path p.rules := by
  unfold takeUp
  rw [p.context.underHeadings_of_chapter .initial titled]
  have start : (⟨Context.initial.underHeadings line, p.rules⟩ : Progress) =
      Progress.behind path p.rules ⟨Context.initial.underHeadings line, []⟩ := by
    simp [Progress.behind, renumbered]
  cases RuleLine.split? line with
  | none => exact start
  | some sides =>
    refine Eq.trans ?_ (fileRule_behind p.rules sides _)
    rw [← start]

-- A text that begins with a chapter adds to a closed one the rules that it has alone. Their
-- places, and with the places their identifiers, are counted on, and nothing else differs.
theorem rules_behind_chapter {earlier later first : Text}
    (closed : ProofBlock.Closed (Text.lines earlier))
    (begins : (Text.lines later).head? = some first)
    (noComment : (Text.trim first).head? ≠ some '%')
    (noStart : ProofBlock.opens first = false) (noEnd : ProofBlock.closes first = false)
    (titled : (Heading.title? Heading.chapterCommand (Text.trim first)).isSome = true) :
    rules (earlier ++ '\n' :: later) path =
        rules earlier path ++ renumbered path (rules earlier path).length (rules later path) ∧
      renumbered path 0 (rules later path) = rules later path := by
  refine ⟨?_, renumbered_rulesOf (Text.lines later)⟩
  obtain ⟨rest, laterLines⟩ : ∃ rest, Text.lines later = first :: rest :=
    List.head?_eq_some_iff.1 begins
  have outside := ProofBlock.closed_iff.1 closed
  have spoken : isSilent (Text.trim first) = false := by
    cases same : Text.trim first with
    | nil =>
      rw [same] at titled
      cases titled
    | cons c t =>
      rw [same] at noComment
      simpa [isSilent] using noComment
  have visible : visible? false first = some (Text.trim first) := by
    rw [visible?_eq_some_iff, ProofBlock.opens_trim, ProofBlock.closes_trim]
    exact ⟨rfl, spoken, noStart, noEnd, rfl⟩
  have sameBlock : ((read path (Text.lines earlier)).next path first).isOpen =
      (Reading.start.next path first).isOpen := by
    unfold Reading.next
    rw [isOpen_read, outside]
    rfl
  have follows : ((read path (Text.lines earlier)).next path first).progress =
      (Reading.start.next path first).progress.behind path (read path (Text.lines earlier)).progress.rules := by
    unfold Reading.next
    rw [isOpen_read, outside, noStart]
    apply (readLine_of_visible visible).trans
    apply (takeUp_of_chapter _ titled).trans
    exact congrArg (Progress.behind path _) (readLine_of_visible visible).symm
  rw [← rulesOf_lines, ← rulesOf_lines, ← rulesOf_lines, Text.lines_append, laterLines]
  rw [rulesOf_eq_read, rulesOf_eq_read, rulesOf_eq_read, read_append]
  have together := reading_behind path _ rest _ _ sameBlock follows
  exact congrArg Progress.rules together

theorem rules_behind_chapter_of_marks :
    let earlier := "\\section\x7bUnits\x7d\n\\[,i \\Pu, \\Rq ,i \\Os,\\]\n\\begin\x7bmath\x7d\\end\x7bmath\x7d".toList
    let later := "\\chapter\x7bNodes\x7d\n\\[, \\Rq ,j \\Or,\\]\n\\[\\sim \\Rq \\sim,\\]".toList
    ProofBlock.Closed (Text.lines earlier) ∧
      rules (earlier ++ '\n' :: later) "a.tex".toList = rules earlier "a.tex".toList ++
        renumbered "a.tex".toList (rules earlier "a.tex".toList).length (rules later "a.tex".toList) ∧
      (rules earlier "a.tex".toList).length = 1 ∧ (rules later "a.tex".toList).length = 2 := by
  intro earlier later
  have closed : ProofBlock.Closed (Text.lines earlier) := ProofBlock.closed_iff.2 (by decide +kernel)
  have begins : (Text.lines later).head? = some "\\chapter\x7bNodes\x7d".toList := by decide +kernel
  have whole := @rules_behind_chapter "a.tex".toList earlier later _ closed begins (by decide +kernel)
    (by decide +kernel) (by decide +kernel) (by decide +kernel)
  exact ⟨closed, whole.1, by decide +kernel, by decide +kernel⟩

end Source
end OperatorCalculus
