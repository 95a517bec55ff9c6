import OperatorCalculus.Proofs.Latex.Block

namespace OperatorCalculus

namespace ProofBlock

inductive Mode where
  | outside
  | within
deriving DecidableEq

-- How a line is flagged and what it leads to. A start marker enters a block, also where one
-- is open already. An end marker is looked for only on the lines of a block, that of the
-- start marker included, and ends the block behind its line.
inductive Step : Mode → Text → Bool → Mode → Prop where
  | passes {line : Text} (unmarked : opens line = false) : Step .outside line false .outside
  | stays {before : Mode} {line : Text} (entered : before = .within ∨ opens line = true)
    (unclosed : closes line = false) : Step before line true .within
  | leaves {before : Mode} {line : Text} (entered : before = .within ∨ opens line = true)
    (ended : closes line = true) : Step before line true .outside

inductive Runs : Mode → List Text → List Bool → Mode → Prop where
  | nil {mode : Mode} : Runs mode [] [] mode
  | cons {before middle after : Mode} {line : Text} {rest : List Text} {flag : Bool}
    {marks : List Bool} (first : Step before line flag middle) (later : Runs middle rest marks after) :
    Runs before (line :: rest) (flag :: marks) after

def Mode.of : Bool → Mode
  | true => .within
  | false => .outside

variable {isOpen flag : Bool} {after : Mode} {line : Text} {lines : List Text} {marks : List Bool}

theorem entered_iff : Mode.of isOpen = .within ∨ opens line = true ↔ (isOpen || opens line) = true := by
  cases isOpen <;> simp [Mode.of]

theorem step_exact : Step (.of isOpen) line flag after ↔
    flag = (isOpen || opens line) ∧ after = .of (advance isOpen line) := by
  constructor
  · intro step
    generalize start : Mode.of isOpen = before at step
    cases step with
    | passes unmarked =>
      cases isOpen with
      | true => cases start
      | false =>
        rw [advance, unmarked]
        exact ⟨rfl, rfl⟩
    | stays entered unclosed =>
      rw [← start, entered_iff] at entered
      rw [advance, entered, unclosed]
      exact ⟨rfl, rfl⟩
    | leaves entered ended =>
      rw [← start, entered_iff] at entered
      rw [advance, entered, ended]
      exact ⟨rfl, rfl⟩
  · rintro ⟨rfl, rfl⟩
    rw [advance]
    cases entered : isOpen || opens line with
    | false =>
      obtain ⟨rfl, unmarked⟩ := Bool.or_eq_false_iff.1 entered
      exact .passes unmarked
    | true =>
      cases ended : closes line with
      | false => exact .stays (entered_iff.2 entered) ended
      | true => exact .leaves (entered_iff.2 entered) ended

theorem runs_exact : Runs (.of isOpen) lines marks after ↔
    marks = inside isOpen lines ∧ after = .of (lines.foldl advance isOpen) := by
  induction lines generalizing isOpen marks with
  | nil =>
    constructor
    · intro runs
      cases runs
      exact ⟨rfl, rfl⟩
    · rintro ⟨rfl, rfl⟩
      exact .nil
  | cons line rest ih =>
    constructor
    · intro runs
      cases runs with
      | cons first later =>
        obtain ⟨flagged, rfl⟩ := step_exact.1 first
        obtain ⟨marked, reached⟩ := ih.1 later
        rw [inside, flagged, marked]
        exact ⟨rfl, reached⟩
    · rintro ⟨rfl, rfl⟩
      exact .cons (step_exact.2 ⟨rfl, rfl⟩) (ih.2 ⟨rfl, rfl⟩)

theorem flagged_iff {i : Nat} (here : lines[i]? = some line) : (flags lines)[i]? = some true ↔
    ∃ first ≤ i, (∃ l, lines[first]? = some l ∧ opens l = true) ∧
      ∀ (j : Nat) (l : Text), first ≤ j → j < i → lines[j]? = some l → closes l = false := by
  have taken : ∀ (j : Nat) (l : Text), (lines.take i)[j]? = some l ↔ j < i ∧ lines[j]? = some l := by
    intro j l
    rw [List.getElem?_take]
    split <;> simp [*]
  rw [flags_at here, Option.some.injEq, Bool.or_eq_true, openAfter_eq_true_iff]
  simp only [taken]
  constructor
  · intro flagged
    rcases flagged with ⟨first, l, ⟨earlier, there⟩, begun, unclosed⟩ | begun
    · refine ⟨first, Nat.le_of_lt earlier, ⟨l, there, begun⟩, ?_⟩
      exact fun j l behind before at_ => unclosed j l behind ⟨before, at_⟩
    · refine ⟨i, Nat.le_refl i, ⟨line, here, begun⟩, ?_⟩
      exact fun j l behind before _ => absurd before (Nat.not_lt.2 behind)
  · intro ⟨first, reached, ⟨l, there, begun⟩, unclosed⟩
    rcases Nat.lt_or_eq_of_le reached with earlier | rfl
    · left
      refine ⟨first, l, ⟨earlier, there⟩, begun, ?_⟩
      exact fun j l behind place => unclosed j l behind place.1 place.2
    · right
      cases here.symm.trans there
      exact begun

-- At an end marker the flags are set back to the line of the last start marker, and behind the
-- last end marker one by one. They are those of the automaton, which has one run on any text.
theorem flags_follow_automaton (lines : List Text) :
    (∀ marks, (∃ last, Runs .outside lines marks last) ↔ marks = flags lines) ∧
    ∀ (i : Nat) (line : Text), lines[i]? = some line → ((flags lines)[i]? = some true ↔
      ∃ first ≤ i, (∃ l, lines[first]? = some l ∧ opens l = true) ∧
        ∀ (j : Nat) (l : Text), first ≤ j → j < i → lines[j]? = some l → closes l = false) := by
  refine ⟨fun marks => ?_, fun i line here => flagged_iff here⟩
  have exactly : ∀ last, Runs (.of false) lines marks last ↔
      marks = inside false lines ∧ last = .of (openAfter lines) := fun _ => runs_exact
  rw [flags_eq_inside]
  constructor
  · intro ⟨last, runs⟩
    exact ((exactly last).1 runs).1
  · intro marked
    exact ⟨_, (exactly _).2 ⟨marked, rfl⟩⟩

end ProofBlock
end OperatorCalculus
