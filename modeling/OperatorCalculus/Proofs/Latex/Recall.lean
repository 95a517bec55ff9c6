import OperatorCalculus.Proofs.Latex.Reading

-- What the reader carries from line to line, told from the lines alone: of each thing that it
-- carries it knows what was last said, unless a heading came after that. So it is said of a
-- place in a source, without the run that led there, which rule is filed from it.
namespace OperatorCalculus

namespace Source

variable {path raw line : Text} {lines : List Text} {i j : Nat} {α : Type} {said : Nat → Option α}
  {sides : RuleLine.Sides}

def lineAt? (lines : List Text) (i : Nat) : Option Text :=
  match lines[i]?, (ProofBlock.flags lines)[i]? with
  | some raw, some inProof => visible? inProof raw
  | _, _ => none

def sidesAt? (lines : List Text) (i : Nat) : Option RuleLine.Sides :=
  (lineAt? lines i).bind RuleLine.split?

def isHeading (line : Text) : Bool :=
  (Heading.title? Heading.chapterCommand line).isSome ||
    (Heading.title? Heading.sectionCommand line).isSome ||
      (Heading.title? Heading.subsectionCommand line).isSome

def headedAt (lines : List Text) (i : Nat) : Bool := (lineAt? lines i).any isHeading

def markAt? (lines : List Text) (i : Nat) : Option Bool := lines[i]?.bind proofMark?

-- The rule that the lines up to this one have and those before it do not.
def filedAt? (path : Text) (lines : List Text) (i : Nat) : Option Rule :=
  (rulesOf (lines.take (i + 1)) path)[(rulesOf (lines.take i) path).length]?

-- What was last said before a place, with no heading from there on up to that place.
def latest (lines : List Text) (said : Nat → Option α) : Nat → Option α
  | 0 => none
  | i + 1 => (said i).or (if headedAt lines i then none else latest lines said i)

def recent (lines : List Text) (said : Nat → Option α) (i : Nat) : Option α :=
  if headedAt lines i then none else latest lines said i

theorem latest_succ (lines : List Text) (said : Nat → Option α) (i : Nat) :
    latest lines said (i + 1) = (said i).or (recent lines said i) :=
  rfl

theorem recent_of_unheaded (unheaded : headedAt lines i = false) (said : Nat → Option α) :
    recent lines said i = latest lines said i := by
  simp [recent, unheaded]

theorem latest_eq_some_iff {a : α} : latest lines said i = some a ↔
    ∃ j < i, said j = some a ∧ ∀ k, j < k → k < i → said k = none ∧ headedAt lines k = false := by
  induction i with
  | zero => simp [latest]
  | succ i ih =>
    rw [latest_succ, Option.or_eq_some_iff]
    constructor
    · intro found
      rcases found with here | ⟨silent, earlier⟩
      · exact ⟨i, Nat.lt_succ_self i, here, fun k above below => by omega⟩
      · unfold recent at earlier
        split at earlier
        · cases earlier
        · next unheaded =>
          obtain ⟨j, before, told, quiet⟩ := ih.1 earlier
          refine ⟨j, Nat.lt_succ_of_lt before, told, fun k above below => ?_⟩
          rcases Nat.lt_succ_iff_lt_or_eq.1 below with within | rfl
          · exact quiet k above within
          · exact ⟨silent, by simpa using unheaded⟩
    · intro ⟨j, before, told, quiet⟩
      rcases Nat.lt_succ_iff_lt_or_eq.1 before with within | rfl
      · obtain ⟨silent, unheaded⟩ := quiet i within (Nat.lt_succ_self i)
        refine .inr ⟨silent, ?_⟩
        unfold recent
        rw [unheaded]
        exact ih.2 ⟨j, within, told, fun k above below => quiet k above (Nat.lt_succ_of_lt below)⟩
      · exact .inl told

theorem recent_eq_some_iff {a : α} : recent lines said i = some a ↔
    ∃ j < i, said j = some a ∧ (∀ k, j < k → k < i → said k = none) ∧
      ∀ k, j < k → k ≤ i → headedAt lines k = false := by
  unfold recent
  constructor
  · intro found
    split at found
    · cases found
    · next unheaded =>
      obtain ⟨j, before, told, quiet⟩ := latest_eq_some_iff.1 found
      refine ⟨j, before, told, fun k above below => (quiet k above below).1, fun k above below => ?_⟩
      rcases Nat.lt_or_eq_of_le below with within | rfl
      · exact (quiet k above within).2
      · simpa using unheaded
  · intro ⟨j, before, told, silent, unheaded⟩
    rw [unheaded i before (Nat.le_refl i)]
    exact latest_eq_some_iff.2 ⟨j, before, told, fun k above below =>
      ⟨silent k above below, unheaded k above (Nat.le_of_lt below)⟩⟩

theorem recent_of_quiet (before : i < j) (silent : ∀ k, i < k → k < j → said k = none)
    (unheaded : ∀ k, i < k → k ≤ j → headedAt lines k = false) :
    recent lines said j = (said i).or (recent lines said i) := by
  induction j with
  | zero => cases before
  | succ j ih =>
    rw [recent_of_unheaded (unheaded _ before (Nat.le_refl _)), latest_succ]
    rcases Nat.lt_succ_iff_lt_or_eq.1 before with within | rfl
    · rw [silent j within (Nat.lt_succ_self j), Option.none_or]
      exact ih within (fun k above below => silent k above (Nat.lt_succ_of_lt below))
        fun k above below => unheaded k above (Nat.le_succ_of_le below)
    · rfl

def progressAt (path : Text) (lines : List Text) (i : Nat) : Progress := (read path (lines.take i)).progress

def contextAt (path : Text) (lines : List Text) (i : Nat) : Context :=
  match lineAt? lines i with
  | some line => (progressAt path lines i).context.underHeadings line
  | none => (progressAt path lines i).context

theorem lineAt?_eq (here : lines[i]? = some raw) :
    lineAt? lines i = visible? (ProofBlock.openAfter (lines.take i) || ProofBlock.opens raw) raw := by
  unfold lineAt?
  rw [here, ProofBlock.flags_at here]

theorem progressAt_succ (here : lines[i]? = some raw) :
    progressAt path lines (i + 1) = readLine path
      (ProofBlock.openAfter (lines.take i) || ProofBlock.opens raw) raw (progressAt path lines i) := by
  unfold progressAt
  rw [List.take_add_one, here, Option.toList_some, read_concat, ← isOpen_read path]
  rfl

theorem progressAt_of_outside (outside : lines[i]? = none) :
    progressAt path lines (i + 1) = progressAt path lines i := by
  unfold progressAt
  rw [List.take_add_one, outside, Option.toList_none, List.append_nil]

theorem line_of_lineAt? (shown : lineAt? lines i = some line) : ∃ raw, lines[i]? = some raw ∧
    visible? false raw = some line ∧ ProofBlock.openAfter (lines.take i) = false := by
  cases here : lines[i]? with
  | none =>
    unfold lineAt? at shown
    rw [here] at shown
    cases shown
  | some raw =>
    rw [lineAt?_eq here] at shown
    obtain ⟨same, spoken, noStart, noEnd, outside⟩ := visible?_eq_some_iff.1 shown
    exact ⟨raw, rfl, visible?_eq_some_iff.2 ⟨same, spoken, noStart, noEnd, rfl⟩,
      (Bool.or_eq_false_iff.1 outside).1⟩

theorem markAt?_of_line (shown : lineAt? lines i = some line) : markAt? lines i = none := by
  obtain ⟨raw, here, visible, _⟩ := line_of_lineAt? shown
  rw [markAt?, here, Option.bind_some, proofMark?_of_visible visible]

theorem progressAt_hidden (hidden : lineAt? lines i = none) :
    progressAt path lines (i + 1) = { progressAt path lines i with
      context.pendingProof := (markAt? lines i).getD (progressAt path lines i).context.pendingProof } := by
  cases here : lines[i]? with
  | none =>
    rw [progressAt_of_outside here, markAt?, here]
    rfl
  | some raw =>
    rw [lineAt?_eq here] at hidden
    rw [progressAt_succ here, readLine_of_hidden hidden, markAt?, here]
    rfl

theorem progressAt_taken (path : Text) (shown : lineAt? lines i = some line) :
    progressAt path lines (i + 1) = match sidesAt? lines i with
      | none => ⟨contextAt path lines i, (progressAt path lines i).rules⟩
      | some sides => fileRule path sides ⟨contextAt path lines i, (progressAt path lines i).rules⟩ := by
  obtain ⟨raw, here, _, _⟩ := line_of_lineAt? shown
  unfold sidesAt? contextAt
  rw [shown, Option.bind_some, progressAt_succ here]
  rw [lineAt?_eq here] at shown
  exact readLine_of_visible shown

theorem filedAt?_of_rules {new : Option Rule}
    (grown : (progressAt path lines (i + 1)).rules = (progressAt path lines i).rules ++ new.toList) :
    filedAt? path lines i = new := by
  have cut : rulesOf (lines.take (i + 1)) path = rulesOf (lines.take i) path ++ new.toList := by
    rw [rulesOf_eq_read, rulesOf_eq_read]
    exact grown
  unfold filedAt?
  rw [cut, List.getElem?_append_right (Nat.le_refl _), Nat.sub_self]
  cases new <;> rfl

theorem step_without_sides (path : Text) (ruleless : sidesAt? lines i = none) :
    progressAt path lines (i + 1) = { progressAt path lines i with
      context := { contextAt path lines i with
        pendingProof := (markAt? lines i).getD (contextAt path lines i).pendingProof } } ∧
    filedAt? path lines i = none := by
  have step : progressAt path lines (i + 1) = { progressAt path lines i with
      context := { contextAt path lines i with
        pendingProof := (markAt? lines i).getD (contextAt path lines i).pendingProof } } := by
    cases shown : lineAt? lines i with
    | none =>
      have unheaded : contextAt path lines i = (progressAt path lines i).context := by
        unfold contextAt
        rw [shown]
      rw [progressAt_hidden shown, unheaded]
    | some line =>
      rw [progressAt_taken path shown, ruleless, markAt?_of_line shown]
      rfl
  refine ⟨step, filedAt?_of_rules ?_⟩
  rw [step]
  exact (List.append_nil _).symm

theorem step_with_sides (path : Text) (stated : sidesAt? lines i = some sides) :
    progressAt path lines (i + 1) =
      (if (contextAt path lines i).drops sides then
        ⟨(contextAt path lines i).counting sides, (progressAt path lines i).rules⟩
      else ⟨((contextAt path lines i).counting sides).remember sides, (progressAt path lines i).rules ++
        [(contextAt path lines i).ruleOf sides path (progressAt path lines i).rules.length]⟩) ∧
    filedAt? path lines i =
      if (contextAt path lines i).drops sides then none
      else some ((contextAt path lines i).ruleOf sides path (progressAt path lines i).rules.length) := by
  obtain ⟨line, shown, _⟩ := Option.bind_eq_some_iff.1 stated
  have step := progressAt_taken path shown
  rw [stated] at step
  simp only [fileRule_eq] at step
  refine ⟨step, filedAt?_of_rules ?_⟩
  rw [step]
  split
  · exact (List.append_nil _).symm
  · rfl

theorem rules_succ (path : Text) (lines : List Text) (i : Nat) :
    (progressAt path lines (i + 1)).rules =
      (progressAt path lines i).rules ++ (filedAt? path lines i).toList := by
  cases stated : sidesAt? lines i with
  | none =>
    obtain ⟨step, unfiled⟩ := step_without_sides path stated
    rw [step, unfiled]
    exact (List.append_nil _).symm
  | some sides =>
    obtain ⟨step, filed⟩ := step_with_sides path stated
    rw [step, filed]
    split
    · exact (List.append_nil _).symm
    · rfl

theorem rules_progressAt (path : Text) (lines : List Text) (i : Nat) :
    (progressAt path lines i).rules = (List.range i).filterMap (filedAt? path lines) := by
  induction i with
  | zero => rfl
  | succ i ih =>
    rw [rules_succ, ih, List.range_succ, List.filterMap_append]
    cases filed : filedAt? path lines i <;> simp [filed]

theorem rulesOf_progressAt (lines : List Text) (path : Text) :
    rulesOf lines path = (progressAt path lines lines.length).rules := by
  rw [progressAt, List.take_length, rulesOf_eq_read]

theorem rulesOf_eq_filterMap (lines : List Text) (path : Text) :
    rulesOf lines path = (List.range lines.length).filterMap (filedAt? path lines) := by
  rw [rulesOf_progressAt, rules_progressAt]

theorem length_rules_mono (path : Text) (lines : List Text) {i j : Nat} (before : i ≤ j) :
    (progressAt path lines i).rules.length ≤ (progressAt path lines j).rules.length := by
  induction before with
  | refl => exact Nat.le_refl _
  | step _ ih =>
    rw [rules_succ, List.length_append]
    exact Nat.le_add_right_of_le ih

theorem length_rules_of_filed {r : Rule} (filed : filedAt? path lines i = some r) :
    (progressAt path lines (i + 1)).rules.length = (progressAt path lines i).rules.length + 1 := by
  rw [rules_succ, filed, List.length_append]
  rfl

theorem exists_filedAt {k n : Nat} {r : Rule} (found : (progressAt path lines n).rules[k]? = some r) :
    ∃ i < n, filedAt? path lines i = some r ∧ (progressAt path lines i).rules.length = k := by
  induction n with
  | zero =>
    unfold progressAt at found
    cases found
  | succ n ih =>
    rw [rules_succ] at found
    rcases Nat.lt_or_ge k (progressAt path lines n).rules.length with earlier | here
    · rw [List.getElem?_append_left earlier] at found
      obtain ⟨i, below, filed, count⟩ := ih found
      exact ⟨i, Nat.lt_succ_of_lt below, filed, count⟩
    · rw [List.getElem?_append_right here] at found
      cases filed : filedAt? path lines n with
      | none =>
        rw [filed] at found
        cases found
      | some only =>
        rw [filed] at found
        obtain ⟨first, same⟩ := List.getElem?_eq_some_iff.1 found
        have place : k - (progressAt path lines n).rules.length = 0 := Nat.lt_one_iff.1 first
        simp only [place] at same
        cases same
        exact ⟨n, Nat.lt_succ_self n, filed, by omega⟩

theorem exists_consecutive {k : Nat} {r next : Rule} (here : (rulesOf lines path)[k]? = some r)
    (behind : (rulesOf lines path)[k + 1]? = some next) :
    ∃ i j, i < j ∧ filedAt? path lines i = some r ∧ filedAt? path lines j = some next ∧
      ∀ m, i < m → m < j → filedAt? path lines m = none := by
  rw [rulesOf_progressAt] at here behind
  obtain ⟨i, _, filed, count⟩ := exists_filedAt here
  obtain ⟨j, _, filedNext, countNext⟩ := exists_filedAt behind
  have counted := length_rules_of_filed filed
  refine ⟨i, j, ?_, filed, filedNext, fun m above below => ?_⟩
  · rcases Nat.lt_or_ge i j with before | after
    · exact before
    · have fewer := length_rules_mono path lines after
      omega
  · cases between : filedAt? path lines m with
    | none => rfl
    | some other =>
      have one := length_rules_of_filed between
      have atLeast := length_rules_mono path lines (Nat.succ_le_of_lt above)
      have atMost := length_rules_mono path lines (Nat.succ_le_of_lt below)
      rw [Nat.succ_eq_add_one] at atLeast atMost
      omega

theorem sidesAt?_of_filed {r : Rule} (filed : filedAt? path lines i = some r) :
    ∃ sides, sidesAt? lines i = some sides := by
  cases stated : sidesAt? lines i with
  | none => cases (step_without_sides path stated).2.symm.trans filed
  | some sides => exact ⟨sides, rfl⟩

def ownLeft? (sides : RuleLine.Sides) : Option Text :=
  if sides.left.isEmpty || sides.left == RuleLine.repetition then none
  else some (RuleLine.wrap sides.left)

def ownRight? (sides : RuleLine.Sides) : Option Text :=
  if sides.repeats || sides.right.isEmpty then none else some (RuleLine.wrap sides.right)

-- Only a line that files a rule is remembered.
def leftAt? (path : Text) (lines : List Text) (i : Nat) : Option Text :=
  (filedAt? path lines i).bind fun _ => (sidesAt? lines i).bind ownLeft?

def rightAt? (path : Text) (lines : List Text) (i : Nat) : Option Text :=
  (filedAt? path lines i).bind fun _ => (sidesAt? lines i).bind ownRight?

theorem leftAt?_of_filed {r : Rule} (filed : filedAt? path lines i = some r)
    (stated : sidesAt? lines i = some sides) : leftAt? path lines i = ownLeft? sides := by
  rw [leftAt?, filed, stated, Option.bind_some, Option.bind_some]

theorem rightAt?_of_filed {r : Rule} (filed : filedAt? path lines i = some r)
    (stated : sidesAt? lines i = some sides) : rightAt? path lines i = ownRight? sides := by
  rw [rightAt?, filed, stated, Option.bind_some, Option.bind_some]

theorem leftAt?_of_unfiled (unfiled : filedAt? path lines i = none) : leftAt? path lines i = none := by
  rw [leftAt?, unfiled, Option.bind_none]

theorem rightAt?_of_unfiled (unfiled : filedAt? path lines i = none) : rightAt? path lines i = none := by
  rw [rightAt?, unfiled, Option.bind_none]

def emptyAt? (lines : List Text) (i : Nat) : Option Bool := (sidesAt? lines i).map emptyLeft

namespace Context

theorem remember_eq (sides : RuleLine.Sides) (c : Context) : c.remember sides = { c with
    lastLeft := (ownLeft? sides).getD c.lastLeft
    lastRight := (ownRight? sides).getD c.lastRight } := by
  unfold remember ownLeft? ownRight? bne
  cases sides.left.isEmpty <;> cases sides.left == RuleLine.repetition <;> cases sides.repeats <;>
    cases sides.right.isEmpty <;> rfl

theorem underHeadings_of_plain (unheaded : isHeading line = false) (c : Context) :
    c.underHeadings line = c := by
  simp only [isHeading, Bool.or_eq_false_iff, Option.isSome_eq_false_iff, Option.isNone_iff_eq_none] at unheaded
  obtain ⟨⟨noChapter, noSection⟩, noSubsection⟩ := unheaded
  unfold underHeadings underSubsection underSection underChapter
  simp only [noChapter, noSection, noSubsection]

theorem underHeadings_of_heading (headed : isHeading line = true) (c : Context) :
    (c.underHeadings line).forget = c.underHeadings line := by
  revert headed
  unfold isHeading underHeadings underSubsection underSection underChapter
  cases Heading.title? Heading.subsectionCommand line with
  | some title => exact fun _ => rfl
  | none =>
    cases Heading.title? Heading.sectionCommand line with
    | some title => exact fun _ => rfl
    | none =>
      cases Heading.title? Heading.chapterCommand line with
      | some title => exact fun _ => rfl
      | none => exact fun headed => nomatch headed

end Context

structure Tells (path : Text) (lines : List Text) (look : {β : Type} → (Nat → Option β) → Option β)
    (c : Context) : Prop where
  run : decide (0 < c.emptyRun) = (look (emptyAt? lines)).getD false
  proof : c.pendingProof = (look (markAt? lines)).getD false
  left : c.lastLeft = (look (leftAt? path lines)).getD []
  right : c.lastRight = (look (rightAt? path lines)).getD []

theorem Tells.contextAt (tells : Tells path lines (latest lines · i) (progressAt path lines i).context) :
    Tells path lines (recent lines · i) (contextAt path lines i) := by
  cases headed : headedAt lines i with
  | false =>
    have same : Source.contextAt path lines i = (progressAt path lines i).context := by
      unfold Source.contextAt
      cases shown : lineAt? lines i with
      | none => rfl
      | some line =>
        rw [headedAt, shown] at headed
        exact Context.underHeadings_of_plain headed _
    rw [same]
    simp only [recent_of_unheaded headed]
    exact tells
  | true =>
    have fresh : (Source.contextAt path lines i).forget = Source.contextAt path lines i := by
      unfold Source.contextAt
      cases shown : lineAt? lines i with
      | none =>
        rw [headedAt, shown] at headed
        cases headed
      | some line =>
        rw [headedAt, shown] at headed
        exact Context.underHeadings_of_heading headed _
    rw [← fresh]
    simp only [recent, headed]
    exact ⟨rfl, rfl, rfl, rfl⟩

theorem Tells.hidden (tells : Tells path lines (recent lines · i) (Source.contextAt path lines i))
    (ruleless : sidesAt? lines i = none) :
    Tells path lines (latest lines · (i + 1)) (progressAt path lines (i + 1)).context := by
  obtain ⟨step, unfiled⟩ := step_without_sides path ruleless
  have noRule : emptyAt? lines i = none := by rw [emptyAt?, ruleless, Option.map_none]
  rw [step]
  refine ⟨?_, ?_, ?_, ?_⟩
  · rw [latest_succ, noRule, Option.none_or]
    exact tells.run
  · rw [latest_succ]
    simp only [tells.proof]
    cases markAt? lines i <;> rfl
  · rw [latest_succ, leftAt?_of_unfiled unfiled, Option.none_or]
    exact tells.left
  · rw [latest_succ, rightAt?_of_unfiled unfiled, Option.none_or]
    exact tells.right

theorem Tells.stated (tells : Tells path lines (recent lines · i) (Source.contextAt path lines i))
    (stated : sidesAt? lines i = some sides) :
    Tells path lines (latest lines · (i + 1)) (progressAt path lines (i + 1)).context := by
  obtain ⟨step, filed⟩ := step_with_sides path stated
  have counted : emptyAt? lines i = some (emptyLeft sides) := by rw [emptyAt?, stated, Option.map_some]
  have unmarked : markAt? lines i = none := by
    obtain ⟨line, shown, _⟩ := Option.bind_eq_some_iff.1 stated
    exact markAt?_of_line shown
  have run : ∀ n : Nat, decide (0 < if emptyLeft sides then n + 1 else 0) = emptyLeft sides := by
    intro n
    cases emptyLeft sides <;> simp
  rw [step]
  split at filed
  · next dropped =>
    rw [if_pos dropped]
    refine ⟨?_, ?_, ?_, ?_⟩
    · rw [latest_succ, counted]
      exact run _
    · rw [latest_succ, unmarked, Option.none_or]
      exact tells.proof
    · rw [latest_succ, leftAt?_of_unfiled filed, Option.none_or]
      exact tells.left
    · rw [latest_succ, rightAt?_of_unfiled filed, Option.none_or]
      exact tells.right
  · next kept =>
    rw [if_neg kept, Context.remember_eq]
    refine ⟨?_, ?_, ?_, ?_⟩
    · rw [latest_succ, counted]
      exact run _
    · rw [latest_succ, unmarked, Option.none_or]
      exact tells.proof
    · rw [latest_succ, leftAt?_of_filed filed stated]
      simp only [Context.counting, tells.left]
      cases ownLeft? sides <;> rfl
    · rw [latest_succ, rightAt?_of_filed filed stated]
      simp only [Context.counting, tells.right]
      cases ownRight? sides <;> rfl

theorem progressAt_tells (path : Text) (lines : List Text) (i : Nat) :
    Tells path lines (latest lines · i) (progressAt path lines i).context := by
  induction i with
  | zero => exact ⟨rfl, rfl, rfl, rfl⟩
  | succ i ih =>
    cases stated : sidesAt? lines i with
    | none => exact ih.contextAt.hidden stated
    | some sides => exact ih.contextAt.stated stated

theorem contextAt_tells (path : Text) (lines : List Text) (i : Nat) :
    Tells path lines (recent lines · i) (contextAt path lines i) :=
  (progressAt_tells path lines i).contextAt

end Source
end OperatorCalculus
