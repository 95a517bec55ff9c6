import OperatorCalculus.Proofs.Latex.Selection

namespace OperatorCalculus

namespace Source

open RuleLine

variable {path : Text} {lines : List Text} {i j : Nat} {first second : RuleLine.Sides}

theorem trimmed_sidesAt (stated : sidesAt? lines i = some first) :
    Text.Trimmed first.left ∧ Text.Trimmed first.right := by
  obtain ⟨line, _, split_⟩ := Option.bind_eq_some_iff.1 stated
  exact trimmed_of_split split_

-- What the mark stood for at the line of the first of two rules decides only where that line
-- wrote out no side of its own.
def LeftReturns (before : Option Text) (first : RuleLine.Sides) : Prop :=
  if first.left = [] then clean (before.getD repetition) = [] else ¬ Bordered first.left

def RightReturns (before : Option Text) (first second : RuleLine.Sides) : Prop :=
  if first.repeats = true then before ≠ none ∨ clean first.right = clean second.right
  else if first.right = [] then clean (before.getD second.right) = []
  else ¬ Bordered first.right

theorem left_returns_iff (before : Option Text) (trimmed : Text.Trimmed first.left) :
    clean (((ownLeft? first).or before).getD repetition) =
        clean (if first.left = repetition then before.getD first.left else first.left) ↔
      LeftReturns before first := by
  unfold ownLeft? LeftReturns
  by_cases empty : first.left = []
  · have apart : ([] : Text) ≠ repetition := by decide
    have nothing : clean [] = [] := rfl
    simp [empty, apart, nothing]
  · by_cases marked : first.left = repetition
    · have filled : repetition ≠ [] := by decide
      have free : ¬ Bordered repetition := by decide
      simp [marked, filled, free]
    · have whole := clean_wrap_eq_iff trimmed empty
      simpa [empty, marked] using whole

theorem right_returns_iff (before : Option Text) (second : RuleLine.Sides)
    (trimmed : Text.Trimmed first.right) :
    clean (((ownRight? first).or before).getD second.right) =
        clean (if first.repeats = true then before.getD first.right else first.right) ↔
      RightReturns before first second := by
  unfold ownRight? RightReturns
  cases repeated : first.repeats with
  | true =>
    cases before with
    | none => simp [eq_comm]
    | some t => simp
  | false =>
    by_cases empty : first.right = []
    · have nothing : clean [] = [] := rfl
      simp [empty, nothing]
    · have whole := clean_wrap_eq_iff trimmed empty
      simpa [empty] using whole

-- Two consecutive rules stand in two lines with no rule filed between them. If no heading
-- stands there either and the second line abbreviates a side, the side is that of the first
-- rule exactly when the first line wrote one out with no commas of its own at its ends, or
-- abbreviated it as well; in the cases left over it depends on what the mark stood for there.
theorem sides_return_iff {document : Text} {k : Nat} {r next : Rule}
    (here : (rules document path)[k]? = some r) (behind : (rules document path)[k + 1]? = some next) :
    let lines := Text.lines document
    ∃ i j first second, i < j ∧ filedAt? path lines i = some r ∧ filedAt? path lines j = some next ∧
      (∀ m, i < m → m < j → filedAt? path lines m = none) ∧
      sidesAt? lines i = some first ∧ sidesAt? lines j = some second ∧
      ((∀ m, i < m → m ≤ j → headedAt lines m = false) →
        (second.left = repetition →
          (next.left = r.left ↔ LeftReturns (recent lines (leftAt? path lines) i) first)) ∧
        (second.repeats = true →
          (next.right = r.right ↔ RightReturns (recent lines (rightAt? path lines) i) first second))) := by
  intro lines
  obtain ⟨i, j, before, filed, filedNext, silent⟩ := exists_consecutive here behind
  obtain ⟨first, stated⟩ := sidesAt?_of_filed filed
  obtain ⟨second, statedNext⟩ := sidesAt?_of_filed filedNext
  refine ⟨i, j, first, second, before, filed, filedNext, silent, stated, statedNext, ?_⟩
  intro unheaded
  obtain ⟨left, right⟩ := sides_of_filed filed stated
  obtain ⟨leftNext, rightNext⟩ := sides_of_filed filedNext statedNext
  obtain ⟨trimmedLeft, trimmedRight⟩ := trimmed_sidesAt stated
  constructor
  · intro marked
    have recalled : recent lines (leftAt? path lines) j =
        (ownLeft? first).or (recent lines (leftAt? path lines) i) := by
      rw [recent_of_quiet before _ unheaded, leftAt?_of_filed filed stated]
      intro m above below
      exact leftAt?_of_unfiled (silent m above below)
    rw [leftNext, left, wrap_inj, ← left_returns_iff _ trimmedLeft]
    unfold filedLeft
    rw [if_pos marked, recalled, marked]
  · intro marked
    have recalled : recent lines (rightAt? path lines) j =
        (ownRight? first).or (recent lines (rightAt? path lines) i) := by
      rw [recent_of_quiet before _ unheaded, rightAt?_of_filed filed stated]
      intro m above below
      exact rightAt?_of_unfiled (silent m above below)
    rw [rightNext, right, wrap_inj, ← right_returns_iff _ second trimmedRight]
    unfold filedRight
    rw [if_pos marked, recalled]

theorem sides_return_of_plain_line :
    let document := "\\section\x7bUnits\x7d\n\\[,i \\Pu, \\Rq ,i \\Os,\\]\n\n\\[\\sim \\Rq \\sim,\\]".toList
    let lines := Text.lines document
    let path := "a.tex".toList
    let title := "Units".toList
    let r : Rule := ⟨"a-0-iuis".toList, title, Rule.theoremType, "operators".toList, title,
      ",i \\Pu,".toList, ",i \\Os,".toList, some title, none⟩
    let next : Rule := { r with id := "a-1-iuis".toList }
    (rules document path)[0]? = some r ∧ (rules document path)[1]? = some next ∧
      ∃ i j first second, i < j ∧ sidesAt? lines i = some first ∧ sidesAt? lines j = some second ∧
        ((∀ m, i < m → m ≤ j → headedAt lines m = false) →
          (second.left = repetition →
            (next.left = r.left ↔ LeftReturns (recent lines (leftAt? path lines) i) first)) ∧
          (second.repeats = true →
            (next.right = r.right ↔ RightReturns (recent lines (rightAt? path lines) i) first second))) := by
  intro document lines path title r next
  have here : (rules document path)[0]? = some r := by decide +kernel
  have behind : (rules document path)[1]? = some next := by decide +kernel
  obtain ⟨i, j, first, second, before, _, _, _, stated, statedNext, returns⟩ := sides_return_iff here behind
  exact ⟨here, behind, i, j, first, second, before, stated, statedNext, returns⟩

-- The second rule has an empty right side, and the mark in the third line stands for the right
-- side of the first.
theorem not_sides_return :
    let document := "\\[,a, \\Rq ,b,\\]\n\\[,c, \\Rq ,\\]\n\\[,d, \\Rq \\sim,\\]".toList
    let lines := Text.lines document
    sidesAt? lines 2 = some ⟨['d'], [], true⟩ ∧ (∀ i < 3, headedAt lines i = false) ∧
      (rules document "theorems.tex".toList).map (·.right) = [",b,".toList, [','], ",b,".toList] := by
  decide +kernel

end Source
end OperatorCalculus
