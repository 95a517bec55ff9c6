import OperatorCalculus.Proofs.Expression.Call
import OperatorCalculus.Proofs.Expression.Reading
import OperatorCalculus.Proofs.Expression.Word

-- The readings that the patterns allow. An expression is read from the left, run by
-- run: a run in which no call begins is one word, and what a word is depends on the
-- word and on a backslash right before it; a call may begin anywhere in a run.
namespace OperatorCalculus

open Scan Text Operand

def Part.ofWord (escaped : Bool) (w : Text) : Part :=
  if isSubscriptedWord w || (isLetterWord w && !escaped) then .operand .variable w
  else if isNumberWord w then .operand .literal w
  else .gap w

theorem Part.ofWord_cases (escaped : Bool) (w : Text) :
    (Part.ofWord escaped w = .operand .variable w ∧
      (isSubscriptedWord w = true ∨ isLetterWord w = true ∧ escaped = false)) ∨
    (Part.ofWord escaped w = .operand .literal w ∧ isNumberWord w = true) ∨
    (Part.ofWord escaped w = .gap w ∧ isNumberWord w = false) := by
  unfold Part.ofWord
  split
  · next variable_ =>
    left
    refine ⟨rfl, ?_⟩
    simpa using variable_
  · split
    · next number => exact .inr (.inl ⟨rfl, number⟩)
    · next other => exact .inr (.inr ⟨rfl, by simpa using other⟩)

@[simp] theorem Part.text_ofWord (escaped : Bool) (w : Text) : (Part.ofWord escaped w).text = w := by
  rcases Part.ofWord_cases escaped w with ⟨same, _⟩ | ⟨same, _⟩ | ⟨same, _⟩ <;> rw [same] <;> rfl

theorem Part.ofWord_or_gap (escaped : Bool) (w : Text) :
    (∃ k, Part.ofWord escaped w = .operand k w) ∨ Part.ofWord escaped w = .gap w := by
  rcases Part.ofWord_cases escaped w with ⟨same, _⟩ | ⟨same, _⟩ | ⟨same, _⟩
  · exact .inl ⟨_, same⟩
  · exact .inl ⟨_, same⟩
  · exact .inr same

theorem Part.ofWord_subscripted {w : Text} (escaped : Bool) (form : isSubscriptedWord w = true) :
    Part.ofWord escaped w = .operand .variable w := by
  simp [Part.ofWord, form]

theorem Part.ofWord_letter {w : Text} (form : isLetterWord w = true) :
    Part.ofWord false w = .operand .variable w := by
  simp [Part.ofWord, form]

theorem Part.ofWord_number {w : Text} (escaped : Bool) (form : isNumberWord w = true) :
    Part.ofWord escaped w = .operand .literal w := by
  have notSubscripted : isSubscriptedWord w = false := by
    cases other : isSubscriptedWord w with
    | false => rfl
    | true =>
      rw [not_number_of_subscripted other] at form
      cases form
  have notLetter : isLetterWord w = false := by
    cases other : isLetterWord w with
    | false => rfl
    | true =>
      rw [not_number_of_letter other] at form
      cases form
  simp [Part.ofWord, form, notSubscripted, notLetter]

def Operand.NoCallIn (w rest : Text) : Prop :=
  ∀ u v, w = u ++ v → v ≠ [] → ¬ CallAhead (v ++ rest)

theorem Operand.noCallIn_nil (rest : Text) : NoCallIn [] rest := by
  intro u v same filled
  simp only [List.nil_eq, List.append_eq_nil_iff] at same
  exact absurd same.2 filled

theorem Operand.noCallIn_cons {c : Char} {w rest : Text} (first : ¬ CallAhead (c :: w ++ rest))
    (later : NoCallIn w rest) : NoCallIn (c :: w) rest := by
  intro u v same filled
  cases u with
  | nil =>
    rw [List.nil_append] at same
    rw [← same]
    exact first
  | cons d u =>
    simp only [List.cons_append, List.cons.injEq] at same
    exact later u v same.2 filled

theorem Operand.first_call (w rest : Text) : NoCallIn w rest ∨
    ∃ u v, w = u ++ v ∧ v ≠ [] ∧ CallAhead (v ++ rest) ∧ NoCallIn u (v ++ rest) := by
  induction w with
  | nil => exact .inl (noCallIn_nil rest)
  | cons c w ih =>
    by_cases first : CallAhead (c :: w ++ rest)
    · exact .inr ⟨[], c :: w, rfl, by simp, first, noCallIn_nil _⟩
    · rcases ih with none | ⟨u, v, same, filled, ahead, none⟩
      · exact .inl (noCallIn_cons first none)
      · refine .inr ⟨c :: u, v, by simp [same], filled, ahead, noCallIn_cons ?_ none⟩
        rwa [same, ← List.cons_append, List.append_assoc] at first

theorem Operand.isWord_head_of_isCall {u : Text} (isCall : IsCall u) :
    ∃ c rest, u = c :: rest ∧ isWord c = true := by
  obtain ⟨n, member, arguments, rfl, _⟩ := isCall
  obtain ⟨filled, word⟩ := name_run member
  cases name : n.1 with
  | nil => exact absurd name filled
  | cons c rest => exact ⟨c, rest ++ '(' :: (arguments ++ [')']), rfl, word c (by simp [name])⟩

theorem Operand.not_callAhead_mark {c : Char} {rest : Text} (apart : isWord c = false) :
    ¬ CallAhead (c :: rest) := by
  intro found
  obtain ⟨u, r, same, isCall⟩ := found
  obtain ⟨d, u, rfl, word⟩ := isWord_head_of_isCall isCall
  simp only [List.cons_append, List.cons.injEq] at same
  rw [same.1, word] at apart
  cases apart

theorem Operand.behind_isCall {u : Text} (isCall : IsCall u) (before : Option Char) :
    behind before u = some ')' := by
  obtain ⟨n, _, arguments, rfl, _⟩ := isCall
  have last : n.1 ++ '(' :: (arguments ++ [')']) = (n.1 ++ '(' :: arguments) ++ [')'] := by simp
  rw [last, behind_concat]

-- The flag says whether a backslash stands right before the reading.
inductive Reads : Bool → Reading → Prop where
  | done {escaped : Bool} : Reads escaped []
  | mark {escaped : Bool} {c : Char} {rest : Reading} (apart : isWord c = false)
      (later : Reads (c == '\\') rest) : Reads escaped (.gap [c] :: rest)
  | word {escaped : Bool} {w : Text} {rest : Reading} (run : IsRun w)
      (closed : closesWord rest.text = true) (plain : NoCallIn w rest.text)
      (later : Reads false rest) : Reads escaped (Part.ofWord escaped w :: rest)
  | call {escaped : Bool} {w u : Text} {rest : Reading} (word : ∀ c ∈ w, isWord c = true)
      (plain : NoCallIn w (u ++ rest.text)) (isCall : IsCall u) (later : Reads false rest) :
      Reads escaped (Part.lead w (.operand .function u :: rest))

namespace Reads

open Reading

variable {escaped : Bool} {ps before after : Reading}

theorem exists_of_text (t : Text) (escaped : Bool) : ∃ ps, Reads escaped ps ∧ text ps = t := by
  induction size : t.length using Nat.strongRecOn generalizing t escaped with
  | ind n ih =>
    cases t with
    | nil => exact ⟨[], .done, rfl⟩
    | cons c rest =>
      cases kind : isWord c with
      | false =>
        obtain ⟨ps, reads, same⟩ := ih rest.length (by simp [← size]) rest (c == '\\') rfl
        exact ⟨.gap [c] :: ps, .mark kind reads, by simp [same, Part.text]⟩
      | true =>
        obtain ⟨w, r, split, word, closed, front⟩ := run_split (c :: rest)
        have run : IsRun w := by
          refine ⟨?_, word⟩
          rw [← front]
          simp [kind]
        have filled := List.length_pos_iff.2 run.1
        have total : n = w.length + r.length := by rw [← size, split, List.length_append]
        rw [split]
        rcases first_call w r with plain | ⟨u, v, same, _, ⟨x, y, ahead, isCall⟩, plain⟩
        · obtain ⟨ps, reads, rfl⟩ := ih r.length (by omega) r false rfl
          exact ⟨_, .word run closed plain reads, by simp⟩
        · obtain ⟨d, x', rfl, _⟩ := isWord_head_of_isCall isCall
          have size' := congrArg List.length ahead
          simp only [List.length_append, List.length_cons] at size'
          have total' := congrArg List.length same
          rw [List.length_append] at total'
          obtain ⟨ps, reads, rfl⟩ := ih y.length (by omega) y false rfl
          rw [ahead] at plain
          refine ⟨_, .call (fun e member => word e (by simp [same, member])) plain isCall reads, ?_⟩
          simp [same, ahead, Part.text]

theorem operand_cases (reads : Reads escaped ps) {k : Kind} {v : Text}
    (member : Part.operand k v ∈ ps) :
    (k = .function ∧ IsCall v) ∨
    (k = .variable ∧ (isSubscriptedWord v = true ∨ isLetterWord v = true)) ∨
    (k = .literal ∧ isNumberWord v = true) := by
  induction reads with
  | done => cases member
  | mark apart later ih =>
    cases List.mem_cons.1 member with
    | inl same => cases same
    | inr member => exact ih member
  | @word escaped w rest run closed plain later ih =>
    cases List.mem_cons.1 member with
    | inl own =>
      rcases Part.ofWord_cases escaped w with ⟨same, form⟩ | ⟨same, form⟩ | ⟨same, _⟩ <;>
        rw [same] at own <;> cases own
      · exact .inr (.inl ⟨rfl, form.imp_right And.left⟩)
      · exact .inr (.inr ⟨rfl, form⟩)
    | inr member => exact ih member
  | @call escaped w u rest word plain isCall later ih =>
    have place : Part.operand k v = .operand .function u ∨ Part.operand k v ∈ rest := by
      unfold Part.lead at member
      split at member
      · exact List.mem_cons.1 member
      · simpa using member
    cases place with
    | inl same =>
      cases same
      exact .inl ⟨rfl, isCall⟩
    | inr member => exact ih member

theorem operand_head (reads : Reads escaped ps) {k : Kind} {v : Text}
    (member : Part.operand k v ∈ ps) : ∃ c rest, v = c :: rest ∧ isWord c = true := by
  have of_run : IsRun v → ∃ c rest, v = c :: rest ∧ isWord c = true := by
    intro run
    cases v with
    | nil => exact absurd rfl run.1
    | cons c rest => exact ⟨c, rest, rfl, run.2 c (by simp)⟩
  rcases reads.operand_cases member with ⟨_, isCall⟩ | ⟨_, form | form⟩ | ⟨_, form⟩
  · exact isWord_head_of_isCall isCall
  · exact of_run (isRun_of_subscripted form)
  · exact of_run (isRun_of_letter form)
  · exact of_run (isRun_of_number form)

end Reads
end OperatorCalculus
