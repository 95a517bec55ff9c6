import Mathlib.Data.List.Induction
import OperatorCalculus.Latex.ProofBlock
import OperatorCalculus.Proofs.Text.Trim

-- The flags of a text are those of one pass that knows of each line only whether a block
-- was open before it. So what a line is flagged depends on the lines up to it, and on
-- those only by the block that they leave open.
namespace OperatorCalculus

namespace ProofBlock

def advance (isOpen : Bool) (line : Text) : Bool := (isOpen || opens line) && !closes line

def openAfter (lines : List Text) : Bool := lines.foldl advance false

def inside (isOpen : Bool) : List Text → List Bool
  | [] => []
  | line :: rest => (isOpen || opens line) :: inside (advance isOpen line) rest

theorem openAfter_append (before after : List Text) :
    openAfter (before ++ after) = after.foldl advance (openAfter before) :=
  List.foldl_append

theorem openAfter_concat (before : List Text) (line : Text) :
    openAfter (before ++ [line]) = advance (openAfter before) line :=
  openAfter_append before [line]

theorem inside_append (isOpen : Bool) (before after : List Text) :
    inside isOpen (before ++ after) = inside isOpen before ++ inside (before.foldl advance isOpen) after := by
  induction before generalizing isOpen with
  | nil => rfl
  | cons line rest ih => simp [inside, ih]

structure SetFrom (first : Nat) (done : List Bool) : Prop where
  within : first ≤ done.length
  marked : ∀ j, first ≤ j → j < done.length → done[j]? = some true

theorem SetFrom.here (done : List Bool) : SetFrom done.length done :=
  ⟨Nat.le_refl _, fun _ behind inRange => absurd inRange (Nat.not_lt.2 behind)⟩

theorem SetFrom.concat {first : Nat} {done : List Bool} (set : SetFrom first done) :
    SetFrom first (done ++ [true]) := by
  refine ⟨?_, ?_⟩
  · rw [List.length_append]
    exact Nat.le_add_right_of_le set.within
  · intro j behind inRange
    rw [List.length_append] at inRange
    rcases Nat.lt_succ_iff_lt_or_eq.1 inRange with earlier | rfl
    · rw [List.getElem?_append_left earlier]
      exact set.marked j behind earlier
    · exact List.getElem?_concat_length

theorem mark_of_setFrom {first : Nat} {done : List Bool} (set : SetFrom first done) (flag : Bool)
    (rest : List Bool) : mark first done.length (done ++ flag :: rest) = done ++ true :: rest := by
  apply List.ext_getElem?
  intro j
  unfold mark
  rw [List.getElem?_mapIdx]
  rcases Nat.lt_trichotomy j done.length with earlier | rfl | later
  · rw [List.getElem?_append_left earlier, List.getElem?_append_left earlier]
    by_cases reached : first ≤ j
    · simp [set.marked j reached earlier]
    · simp [reached]
  · simp [set.within]
  · obtain ⟨k, rfl⟩ := Nat.exists_eq_add_of_lt later
    have place : done.length + k + 1 - done.length = k + 1 := by omega
    have beyond : ¬ done.length + k + 1 ≤ done.length := by omega
    rw [List.getElem?_append_right (by omega), List.getElem?_append_right (by omega)]
    simp [place, beyond]

-- The flags behind the line at hand are not set yet; those of an open block are set from
-- the line of its last start marker on.
theorem flagsFrom_eq_inside (lines : List Text) :
    ∀ (start : Option Nat) (done : List Bool), (∀ first, start = some first → SetFrom first done) →
      flagsFrom done.length start (done ++ List.replicate lines.length false) lines =
        done ++ inside start.isSome lines := by
  induction lines with
  | nil =>
    intro start done _
    simp [flagsFrom, inside]
  | cons line rest ih =>
    intro start done set
    have goOn : ∀ (start : Option Nat) (flag : Bool),
        (∀ first, start = some first → SetFrom first (done ++ [flag])) →
        flagsFrom (done.length + 1) start (done ++ flag :: List.replicate rest.length false) rest =
          done ++ flag :: inside start.isSome rest := by
      intro start flag set
      have later := ih start (done ++ [flag]) set
      simpa using later
    have current : ∀ first, (if opens line then some done.length else start) = some first →
        SetFrom first done := by
      intro first begun
      split at begun
      · cases begun
        exact .here done
      · exact set first begun
    have isOpen : (start.isSome || opens line) =
        (if opens line then some done.length else start).isSome := by
      cases opens line <;> simp
    unfold flagsFrom inside
    rw [advance, isOpen, List.length_cons, List.replicate_succ]
    cases begun : (if opens line then some done.length else start) with
    | none => exact goOn none false (by simp)
    | some first =>
      have set := current first begun
      simp only [mark_of_setFrom set, mark_of_setFrom (.here done)]
      cases closes line with
      | true => exact goOn none true (by simp)
      | false =>
        refine goOn (some first) true ?_
        intro same here
        cases here
        exact set.concat

theorem flags_eq_inside (lines : List Text) : flags lines = inside false lines := by
  have all := flagsFrom_eq_inside lines none [] (by simp)
  simpa [flags] using all

theorem flags_append (before after : List Text) :
    flags (before ++ after) = flags before ++ inside (openAfter before) after := by
  rw [flags_eq_inside, flags_eq_inside, inside_append, openAfter]

theorem flags_at {lines : List Text} {i : Nat} {line : Text} (here : lines[i]? = some line) :
    (flags lines)[i]? = some (openAfter (lines.take i) || opens line) := by
  obtain ⟨inRange, same⟩ := List.getElem?_eq_some_iff.1 here
  have cut : lines = lines.take i ++ line :: lines.drop (i + 1) := by
    rw [← same, List.getElem_cons_drop, List.take_append_drop]
  have front : (flags (lines.take i)).length = i := by
    rw [length_flags, List.length_take, Nat.min_eq_left (Nat.le_of_lt inRange)]
  have parts : flags lines = flags (lines.take i) ++
      inside (openAfter (lines.take i)) (line :: lines.drop (i + 1)) := by
    rw [← flags_append, ← cut]
  rw [parts, List.getElem?_append_right (Nat.le_of_eq front), front, Nat.sub_self]
  rfl

theorem getElem?_concat_iff {lines : List Text} {last line : Text} {i : Nat} :
    (lines ++ [last])[i]? = some line ↔ lines[i]? = some line ∨ i = lines.length ∧ last = line := by
  rcases Nat.lt_trichotomy i lines.length with earlier | rfl | later
  · rw [List.getElem?_append_left earlier]
    simp [Nat.ne_of_lt earlier]
  · simp
  · have beyond : lines.length ≤ i := Nat.le_of_lt later
    have far : 1 ≤ i - lines.length := by omega
    rw [List.getElem?_append_right beyond, List.getElem?_eq_none beyond, List.getElem?_eq_none far]
    simp [Nat.ne_of_gt later]

theorem openAfter_eq_true_iff {lines : List Text} : openAfter lines = true ↔
    ∃ (i : Nat) (line : Text), lines[i]? = some line ∧ opens line = true ∧
      ∀ (j : Nat) (l : Text), i ≤ j → lines[j]? = some l → closes l = false := by
  induction lines using List.reverseRecOn with
  | nil => simp [openAfter]
  | append_singleton lines last ih =>
    rw [openAfter_concat, advance, Bool.and_eq_true, Bool.or_eq_true, ih, Bool.not_eq_true']
    constructor
    · intro ⟨opened, closed⟩
      cases opened with
      | inl earlier =>
        obtain ⟨i, line, here, begun, unclosed⟩ := earlier
        refine ⟨i, line, getElem?_concat_iff.2 (.inl here), begun, ?_⟩
        intro j l behind there
        rcases getElem?_concat_iff.1 there with inside_ | ⟨_, rfl⟩
        · exact unclosed j l behind inside_
        · exact closed
      | inr begun =>
        refine ⟨lines.length, last, getElem?_concat_iff.2 (.inr ⟨rfl, rfl⟩), begun, ?_⟩
        intro j l behind there
        rcases getElem?_concat_iff.1 there with inside_ | ⟨_, rfl⟩
        · exact absurd (List.getElem?_eq_some_iff.1 inside_).1 (Nat.not_lt.2 behind)
        · exact closed
    · intro ⟨i, line, here, begun, unclosed⟩
      have still : ∀ (j : Nat) (l : Text), i ≤ j → lines[j]? = some l → closes l = false :=
        fun j l behind there => unclosed j l behind (getElem?_concat_iff.2 (.inl there))
      rcases getElem?_concat_iff.1 here with inside_ | ⟨rfl, rfl⟩
      · have reached : i ≤ lines.length := Nat.le_of_lt (List.getElem?_eq_some_iff.1 inside_).1
        have ends := unclosed _ last reached (getElem?_concat_iff.2 (.inr ⟨rfl, rfl⟩))
        exact ⟨.inl ⟨i, line, inside_, begun, still⟩, ends⟩
      · exact ⟨.inr begun, unclosed _ last (Nat.le_refl _) here⟩

def Closed (lines : List Text) : Prop :=
  ∀ (i : Nat) (line : Text), lines[i]? = some line → opens line = true →
    ∃ (j : Nat) (l : Text), i ≤ j ∧ lines[j]? = some l ∧ closes l = true

theorem closed_iff {lines : List Text} : Closed lines ↔ openAfter lines = false := by
  rw [Bool.eq_false_iff, ne_eq, openAfter_eq_true_iff]
  constructor
  · intro closed ⟨i, line, here, begun, unclosed⟩
    obtain ⟨j, l, behind, there, ended⟩ := closed i line here begun
    cases ended.symm.trans (unclosed j l behind there)
  · intro never i line here begun
    by_contra unclosed
    refine never ⟨i, line, here, begun, fun j l behind there => ?_⟩
    rw [Bool.eq_false_iff]
    exact fun ended => unclosed ⟨j, l, behind, there, ended⟩

theorem advance_of_unmarked {line : Text} (noStart : opens line = false) (noEnd : closes line = false)
    (isOpen : Bool) : advance isOpen line = isOpen := by
  simp [advance, noStart, noEnd]

theorem opens_trim (line : Text) : opens (Text.trim line) = opens line := by
  have visible : ∀ m ∈ startMarkers, m.any Text.isBlank = false := by decide
  unfold opens
  rw [Bool.eq_iff_iff, List.any_eq_true, List.any_eq_true]
  apply exists_congr
  intro m
  apply and_congr_right
  intro member
  rw [Text.contains_trim (List.any_eq_false.1 (visible m member))]

theorem closes_trim (line : Text) : closes (Text.trim line) = closes line := by
  have visible : endMarker.any Text.isBlank = false := by decide
  exact Text.contains_trim (List.any_eq_false.1 visible) line

end ProofBlock
end OperatorCalculus
