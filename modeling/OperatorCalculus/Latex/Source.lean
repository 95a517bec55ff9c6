import OperatorCalculus.Latex.Heading
import OperatorCalculus.Latex.Naming
import OperatorCalculus.Latex.ProofBlock

-- The rules of one source text, line by line. Headings set what a rule is filed under
-- and forget what came before; the repetition mark stands for the corresponding side of
-- the rule before; of a run of rules without a left side only the first is kept, since
-- the others are the steps of its proof.
namespace OperatorCalculus

namespace Source

structure Context where
  chapterTitle : Text
  sectionTitle : Text
  subsectionTitle : Text
  lastLeft : Text
  lastRight : Text
  emptyRun : Nat
  pendingProof : Bool
deriving DecidableEq, Repr

namespace Context

def initial : Context := ⟨[], [], [], [], [], 0, false⟩

def forget (c : Context) : Context :=
  { c with lastLeft := [], lastRight := [], emptyRun := 0, pendingProof := false }

def underChapter (line : Text) (c : Context) : Context :=
  match Heading.title? Heading.chapterCommand line with
  | some title => { c.forget with chapterTitle := title, sectionTitle := [], subsectionTitle := [] }
  | none => c

def underSection (line : Text) (c : Context) : Context :=
  match Heading.title? Heading.sectionCommand line with
  | some title => { c.forget with sectionTitle := title, subsectionTitle := [] }
  | none => c

def underSubsection (line : Text) (c : Context) : Context :=
  match Heading.title? Heading.subsectionCommand line with
  | some title => { c.forget with subsectionTitle := title }
  | none => c

def underHeadings (line : Text) (c : Context) : Context :=
  underSubsection line (underSection line (underChapter line c))

def heading (c : Context) : Text := if c.sectionTitle.isEmpty then c.chapterTitle else c.sectionTitle

def description (c : Context) : Text :=
  if c.subsectionTitle.isEmpty then c.heading else c.heading ++ " - ".toList ++ c.subsectionTitle

def optional (t : Text) : Option Text := if t.isEmpty then none else some t

def file (c : Context) (path : Text) (index : Nat) (left right : Text) : Rule where
  id := Naming.id path index left right
  name := Naming.name left right c.heading c.subsectionTitle
  type := Naming.ruleType c.chapterTitle c.sectionTitle c.subsectionTitle path
  category := Naming.category c.chapterTitle c.sectionTitle
  description := c.description
  left := left
  right := right
  sectionTitle := optional c.sectionTitle
  subsectionTitle := optional c.subsectionTitle

-- The sides as they stand in the line are remembered, not as they were filed. A mark
-- in place of a side remembers nothing new.
def remember (sides : RuleLine.Sides) (c : Context) : Context :=
  let c := if !sides.left.isEmpty && sides.left != RuleLine.repetition then
      { c with lastLeft := RuleLine.wrap sides.left }
    else c
  if !sides.repeats && !sides.right.isEmpty then
    { c with lastRight := RuleLine.wrap sides.right }
  else c

def expandLeft (sides : RuleLine.Sides) (c : Context) : Text :=
  if sides.left == RuleLine.repetition && !c.lastLeft.isEmpty then c.lastLeft else sides.left

def expandRight (sides : RuleLine.Sides) (c : Context) : Text :=
  if sides.repeats && !c.lastRight.isEmpty then c.lastRight else sides.right

end Context

structure Progress where
  context : Context
  rules : List Rule
deriving DecidableEq, Repr

def emptyLeft (sides : RuleLine.Sides) : Bool := sides.left.isEmpty || sides.left == [',']

def fileRule (path : Text) (sides : RuleLine.Sides) (p : Progress) : Progress :=
  let empty := emptyLeft sides
  let run := if empty then p.context.emptyRun + 1 else 0
  let context := { p.context with emptyRun := run }
  if empty && 1 < run then ⟨context, p.rules⟩
  else
    let left := RuleLine.clean (context.expandLeft sides)
    let right := RuleLine.clean (context.expandRight sides)
    if (left.isEmpty && right.isEmpty) || (empty && context.pendingProof && run == 1) then
      ⟨context, p.rules⟩
    else
      let rule := context.file path p.rules.length (RuleLine.wrap left) (RuleLine.wrap right)
      ⟨context.remember sides, p.rules ++ [rule]⟩

-- Blank lines and comments are passed over before any marker is looked for.
def isSilent (line : Text) : Bool := line.isEmpty || line.head? == some '%'

def readLine (path : Text) (inProof : Bool) (raw : Text) (p : Progress) : Progress :=
  let line := Text.trim raw
  if isSilent line then p
  else if ProofBlock.opens line then { p with context := { p.context with pendingProof := true } }
  else if ProofBlock.closes line then
    { p with context := { p.context with pendingProof := false } }
  else if inProof then p
  else
    let p := { p with context := p.context.underHeadings line }
    match RuleLine.split? line with
    | none => p
    | some sides => fileRule path sides p

def readLines (path : Text) : List (Text × Bool) → Progress → Progress
  | [], p => p
  | (raw, inProof) :: rest, p => readLines path rest (readLine path inProof raw p)

-- Whether a line lies in a proof is decided for the whole text beforehand, comments
-- included.
def rules (document path : Text) : List Rule :=
  let lines := Text.lines document
  (readLines path (lines.zip (ProofBlock.flags lines)) ⟨.initial, []⟩).rules

end Source
end OperatorCalculus
