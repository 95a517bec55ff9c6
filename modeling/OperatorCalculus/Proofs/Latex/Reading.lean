import OperatorCalculus.Latex.Source
import OperatorCalculus.Proofs.Latex.Block
import OperatorCalculus.Proofs.Text.Lines

namespace OperatorCalculus

namespace Source

variable {path line raw : Text} {inProof : Bool} {p : Progress}

def rulesOf (lines : List Text) (path : Text) : List Rule :=
  (readLines path (lines.zip (ProofBlock.flags lines)) ⟨.initial, []⟩).rules

theorem rulesOf_lines (document path : Text) : rulesOf (Text.lines document) path = rules document path :=
  rfl

structure Reading where
  isOpen : Bool
  progress : Progress
deriving DecidableEq, Repr

namespace Reading

def start : Reading := ⟨false, .initial, []⟩

def next (path : Text) (s : Reading) (line : Text) : Reading where
  isOpen := ProofBlock.advance s.isOpen line
  progress := readLine path (s.isOpen || ProofBlock.opens line) line s.progress

end Reading

def read (path : Text) (lines : List Text) : Reading := lines.foldl (Reading.next path) .start

theorem readLines_inside (path : Text) (lines : List Text) (s : Reading) :
    readLines path (lines.zip (ProofBlock.inside s.isOpen lines)) s.progress =
      (lines.foldl (Reading.next path) s).progress := by
  induction lines generalizing s with
  | nil => rfl
  | cons line rest ih => exact ih (s.next path line)

theorem rulesOf_eq_read (lines : List Text) (path : Text) :
    rulesOf lines path = (read path lines).progress.rules := by
  unfold rulesOf
  rw [ProofBlock.flags_eq_inside]
  exact congrArg Progress.rules (readLines_inside path lines .start)

theorem read_append (path : Text) (before after : List Text) :
    read path (before ++ after) = after.foldl (Reading.next path) (read path before) :=
  List.foldl_append

theorem read_concat (path : Text) (before : List Text) (line : Text) :
    read path (before ++ [line]) = (read path before).next path line :=
  read_append path before [line]

theorem isOpen_read (path : Text) (lines : List Text) :
    (read path lines).isOpen = ProofBlock.openAfter lines := by
  induction lines using List.reverseRecOn with
  | nil => rfl
  | append_singleton lines last ih =>
    rw [read_concat, ProofBlock.openAfter_concat, ← ih]
    rfl

-- The line as it is taken up, or nothing for a blank line, a comment, a line with a marker
-- and a line of a proof.
def visible? (inProof : Bool) (raw : Text) : Option Text :=
  if isSilent (Text.trim raw) || ProofBlock.opens (Text.trim raw) ||
      ProofBlock.closes (Text.trim raw) || inProof then none
  else some (Text.trim raw)

-- Of a line with both markers only the start counts. Silent lines say nothing here, other
-- than for the flags.
def proofMark? (raw : Text) : Option Bool :=
  if isSilent (Text.trim raw) then none
  else if ProofBlock.opens (Text.trim raw) then some true
  else if ProofBlock.closes (Text.trim raw) then some false
  else none

def takeUp (path line : Text) (p : Progress) : Progress :=
  let p := { p with context := p.context.underHeadings line }
  match RuleLine.split? line with
  | none => p
  | some sides => fileRule path sides p

theorem visible?_eq_some_iff : visible? inProof raw = some line ↔
    line = Text.trim raw ∧ isSilent line = false ∧ ProofBlock.opens line = false ∧
      ProofBlock.closes line = false ∧ inProof = false := by
  unfold visible?
  constructor
  · intro visible
    split at visible
    · cases visible
    · next shown =>
      cases visible
      simpa [Bool.or_eq_true, not_or, and_assoc] using shown
  · intro ⟨same, spoken, noStart, noEnd, outside⟩
    subst same
    simp [spoken, noStart, noEnd, outside]

theorem readLine_of_visible (visible : visible? inProof raw = some line) :
    readLine path inProof raw p = takeUp path line p := by
  obtain ⟨rfl, spoken, noStart, noEnd, rfl⟩ := visible?_eq_some_iff.1 visible
  unfold readLine
  simp only [spoken, noStart, noEnd]
  rfl

theorem proofMark?_of_visible (visible : visible? inProof raw = some line) : proofMark? raw = none := by
  obtain ⟨rfl, spoken, noStart, noEnd, _⟩ := visible?_eq_some_iff.1 visible
  simp [proofMark?, spoken, noStart, noEnd]

theorem readLine_of_hidden (hidden : visible? inProof raw = none) :
    readLine path inProof raw p =
      { p with context.pendingProof := (proofMark? raw).getD p.context.pendingProof } := by
  unfold readLine proofMark?
  cases silent : isSilent (Text.trim raw) with
  | true => simp [silent]
  | false =>
    cases begun : ProofBlock.opens (Text.trim raw) with
    | true => simp [silent, begun]
    | false =>
      cases ended : ProofBlock.closes (Text.trim raw) with
      | true => simp [silent, begun, ended]
      | false =>
        cases inProof with
        | true => simp [silent, begun, ended]
        | false => simp [visible?, silent, begun, ended] at hidden

theorem readLine_of_silent (silent : isSilent (Text.trim raw) = true) : readLine path inProof raw p = p := by
  unfold readLine
  simp [silent]

namespace Context

variable (sides : RuleLine.Sides) (c : Context)

def counting : Context := { c with emptyRun := if emptyLeft sides then c.emptyRun + 1 else 0 }

def leftOf : Text := RuleLine.clean (c.expandLeft sides)
def rightOf : Text := RuleLine.clean (c.expandRight sides)

def drops : Bool :=
  emptyLeft sides && (decide (0 < c.emptyRun) || c.pendingProof) ||
    (c.leftOf sides).isEmpty && (c.rightOf sides).isEmpty

def ruleOf (path : Text) (index : Nat) : Rule :=
  c.file path index (RuleLine.wrap (c.leftOf sides)) (RuleLine.wrap (c.rightOf sides))

theorem ruleOf_left (path : Text) (index : Nat) :
    (c.ruleOf sides path index).left = RuleLine.wrap (c.leftOf sides) := by
  simp only [ruleOf, file]

theorem ruleOf_right (path : Text) (index : Nat) :
    (c.ruleOf sides path index).right = RuleLine.wrap (c.rightOf sides) := by
  simp only [ruleOf, file]

theorem ruleOf_index (path : Text) (index other : Nat) :
    c.ruleOf sides path other = { c.ruleOf sides path index with
      id := Naming.id path other (c.ruleOf sides path index).left (c.ruleOf sides path index).right } := by
  simp only [ruleOf, file]

end Context

theorem fileRule_eq (path : Text) (sides : RuleLine.Sides) (p : Progress) :
    fileRule path sides p =
      if p.context.drops sides then ⟨p.context.counting sides, p.rules⟩
      else ⟨(p.context.counting sides).remember sides,
        p.rules ++ [p.context.ruleOf sides path p.rules.length]⟩ := by
  unfold fileRule Context.drops
  cases empty : emptyLeft sides with
  | false => simp [Context.counting, empty]; rfl
  | true =>
    cases run : p.context.emptyRun with
    | zero =>
      cases pending : p.context.pendingProof with
      | false => simp [Context.counting, empty, run, pending]; rfl
      | true => simp [Context.counting, empty, run, pending]
    | succ n => simp [Context.counting, empty, run]

end Source
end OperatorCalculus
