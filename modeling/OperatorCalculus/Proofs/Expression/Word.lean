import OperatorCalculus.Expression.Operand
import OperatorCalculus.Proofs.Expression.Scan

namespace OperatorCalculus

namespace Operand

open Scan Text

def isLetterWord : Text → Bool
  | [c] => isLower c
  | _ => false

def isSubscriptedWord : Text → Bool
  | [] => false
  | c :: rest =>
    isLower c &&
      match rest.dropWhile isStem with
      | '_' :: digits => !digits.isEmpty && digits.all isDigit
      | _ => false

def isNumberWord (w : Text) : Bool := !w.isEmpty && w.all isDigit

theorem isWord_of_isLower {c : Char} (lower : isLower c = true) : isWord c = true := by
  simp [isWord, isLetter, lower]

theorem isWord_of_isDigit {c : Char} (digit : isDigit c = true) : isWord c = true := by
  simp [isWord, digit]

theorem isWord_of_isStem {c : Char} (stem : isStem c = true) : isWord c = true := by
  cases Bool.or_eq_true _ _ ▸ stem with
  | inl lower => exact isWord_of_isLower lower
  | inr digit => exact isWord_of_isDigit digit

variable {w r : Text}

theorem takeWhile_of_closed (p : Char → Bool) (w : Text) (word : ∀ c, p c = true → isWord c = true)
    (closed : closesWord r = true) : (w ++ r).takeWhile p = w.takeWhile p := by
  induction w with
  | nil =>
    cases r with
    | nil => rfl
    | cons c rest =>
      have apart : p c = false := by
        cases kind : p c with
        | false => rfl
        | true => simp [closesWord_cons, word c kind] at closed
      simp [apart]
  | cons c rest ih => simp only [List.cons_append, List.takeWhile_cons, ih]

theorem dropWhile_of_closed (p : Char → Bool) (w : Text) (word : ∀ c, p c = true → isWord c = true)
    (closed : closesWord r = true) : (w ++ r).dropWhile p = w.dropWhile p ++ r := by
  have both := List.takeWhile_append_dropWhile (p := p) (l := w ++ r)
  rw [takeWhile_of_closed p w word closed] at both
  have own := List.takeWhile_append_dropWhile (p := p) (l := w)
  refine List.append_cancel_left (both.trans ?_)
  rw [← List.append_assoc, own]

theorem closesWord_of_run (word : ∀ c ∈ w, isWord c = true) (closed : closesWord r = true) :
    closesWord (w ++ r) = w.isEmpty := by
  cases w with
  | nil => exact closed
  | cons c rest => simp [closesWord_cons, word c (by simp)]

theorem isEmpty_dropWhile (p : Char → Bool) (w : Text) : (w.dropWhile p).isEmpty = w.all p := by
  induction w with
  | nil => rfl
  | cons c rest ih =>
    cases kind : p c with
    | true => simpa [kind] using ih
    | false => simp [kind]

theorem takeWhile_of_all {p : Char → Bool} {w : Text} (all : w.all p = true) :
    w.takeWhile p = w := by
  have rest : w.dropWhile p = [] := List.isEmpty_iff.1 ((isEmpty_dropWhile p w).trans all)
  have both := List.takeWhile_append_dropWhile (p := p) (l := w)
  rwa [rest, List.append_nil] at both

theorem run_split (t : Text) : ∃ w r, t = w ++ r ∧ (∀ c ∈ w, isWord c = true) ∧
    closesWord r = true ∧ t.takeWhile isWord = w :=
  ⟨t.takeWhile isWord, t.dropWhile isWord, List.takeWhile_append_dropWhile.symm,
    fun _ member => List.all_eq_true.1 List.all_takeWhile _ member, run_dropWhile t, rfl⟩

theorem number_eq : number = wordMatcher isNumberWord := by
  funext before t
  obtain ⟨w, r, rfl, word, closed, run⟩ := run_split t
  rw [wordMatcher, run]
  have behind := dropWhile_of_closed isDigit w (fun _ => isWord_of_isDigit) closed
  have front := takeWhile_of_closed isDigit w (fun _ => isWord_of_isDigit) closed
  have rest : closesWord (w.dropWhile isDigit ++ r) = w.all isDigit := by
    rw [closesWord_of_run (fun c member => word c (List.dropWhile_subset _ member)) closed,
      isEmpty_dropWhile]
  simp only [number, front, behind, rest, isNumberWord]
  by_cases all : w.all isDigit = true
  · simp only [takeWhile_of_all all, all, Bool.and_true]
  · simp [all]

theorem not_lower_of_closed {c : Char} {rest : Text} (closed : closesWord (c :: rest) = true) :
    isLower c = false := by
  cases kind : isLower c with
  | false => rfl
  | true => simp [closesWord_cons, isWord_of_isLower kind] at closed

theorem letter_eq : letter = wordMatcher isLetterWord := by
  funext before t
  obtain ⟨w, r, rfl, word, closed, run⟩ := run_split t
  rw [wordMatcher, run]
  cases w with
  | nil =>
    cases r with
    | nil => simp [letter, isLetterWord]
    | cons c rest =>
      have apart := not_lower_of_closed closed
      simp [letter, isLetterWord, apart]
  | cons c w =>
    have rest := closesWord_of_run (w := w) (fun d member => word d (by simp [member])) closed
    cases w with
    | nil => simp [letter, isLetterWord, closed]
    | cons d w => simp [letter, isLetterWord, closesWord_cons, word d (by simp)]

theorem subscripted_eq : subscripted = wordMatcher isSubscriptedWord := by
  funext before t
  obtain ⟨w, r, rfl, word, closed, run⟩ := run_split t
  rw [wordMatcher, run]
  cases w with
  | nil =>
    cases r with
    | nil => simp [subscripted, isSubscriptedWord]
    | cons c rest =>
      have apart := not_lower_of_closed closed
      simp [subscripted, isSubscriptedWord, apart]
  | cons c w =>
    have behind := dropWhile_of_closed isStem w (fun _ => isWord_of_isStem) closed
    have front := takeWhile_of_closed isStem w (fun _ => isWord_of_isStem) closed
    have both := List.takeWhile_append_dropWhile (p := isStem) (l := w)
    cases tail : w.dropWhile isStem with
    | nil =>
      simp only [subscripted, isSubscriptedWord, List.cons_append, behind, tail, List.nil_append]
      cases r with
      | nil => simp
      | cons d rest =>
        have apart : d ≠ '_' := by
          rintro rfl
          simp [closesWord_cons, isWord] at closed
        simp [apart]
    | cons d digits =>
      rw [tail] at both
      simp only [subscripted, isSubscriptedWord, List.cons_append, front, behind, tail]
      by_cases mark : d = '_'
      · subst mark
        have wordDigits : ∀ e ∈ digits, isWord e = true := fun e member => word e (by
          rw [← both]
          simp [member])
        have front' := takeWhile_of_closed isDigit digits (fun _ => isWord_of_isDigit) closed
        have behind' := dropWhile_of_closed isDigit digits (fun _ => isWord_of_isDigit) closed
        have rest : closesWord (digits.dropWhile isDigit ++ r) = digits.all isDigit := by
          rw [closesWord_of_run (fun e member => wordDigits e (List.dropWhile_subset _ member))
            closed, isEmpty_dropWhile]
        simp only [front', behind', rest]
        by_cases all : digits.all isDigit = true
        · have size := congrArg List.length both
          simp only [List.length_append, List.length_cons] at size
          have total : (w.takeWhile isStem).length + digits.length + 2 = (c :: w).length := by
            simp only [List.length_cons]
            omega
          simp only [takeWhile_of_all all, all, Bool.and_true, total]
          cases opensWord before <;> cases isLower c <;> cases digits.isEmpty <;> rfl
        · simp [all]
      · simp [mark]

theorem isSubscriptedWord_iff {w : Text} : isSubscriptedWord w = true ↔
    ∃ c stem digits, w = c :: (stem ++ '_' :: digits) ∧ isLower c = true ∧
      (∀ d ∈ stem, isStem d = true) ∧ digits ≠ [] ∧ ∀ d ∈ digits, isDigit d = true := by
  constructor
  · intro form
    cases w with
    | nil => cases form
    | cons c rest =>
      simp only [isSubscriptedWord, Bool.and_eq_true] at form
      obtain ⟨lower, tail⟩ := form
      have both := List.takeWhile_append_dropWhile (p := isStem) (l := rest)
      split at tail
      · next digits same =>
        simp only [Bool.and_eq_true, Bool.not_eq_true', List.isEmpty_eq_false_iff] at tail
        refine ⟨c, rest.takeWhile isStem, digits, ?_, lower, ?_, tail.1, List.all_eq_true.1 tail.2⟩
        · rw [← same, both]
        · exact List.all_eq_true.1 List.all_takeWhile
      · cases tail
  · intro found
    obtain ⟨c, stem, digits, rfl, lower, stems, filled, all⟩ := found
    have rest : (stem ++ '_' :: digits).dropWhile isStem = '_' :: digits := by
      rw [List.dropWhile_append_of_pos stems]
      rfl
    simp only [isSubscriptedWord, lower, rest, Bool.true_and, Bool.and_eq_true,
      Bool.not_eq_true', List.isEmpty_eq_false_iff]
    exact ⟨filled, List.all_eq_true.2 all⟩

theorem isLetterWord_iff {w : Text} : isLetterWord w = true ↔ ∃ c, w = [c] ∧ isLower c = true := by
  constructor
  · intro form
    match w, form with
    | [c], form => exact ⟨c, rfl, form⟩
  · intro found
    obtain ⟨c, rfl, lower⟩ := found
    exact lower

theorem isNumberWord_iff {w : Text} :
    isNumberWord w = true ↔ w ≠ [] ∧ ∀ c ∈ w, isDigit c = true := by
  simp [isNumberWord, List.isEmpty_eq_false_iff]

theorem isRun_of_subscripted {w : Text} (form : isSubscriptedWord w = true) : IsRun w := by
  obtain ⟨c, stem, digits, rfl, lower, stems, _, all⟩ := isSubscriptedWord_iff.1 form
  refine ⟨by simp, fun d member => ?_⟩
  simp only [List.mem_cons, List.mem_append] at member
  rcases member with rfl | inStem | rfl | inDigits
  · exact isWord_of_isLower lower
  · exact isWord_of_isStem (stems d inStem)
  · rfl
  · exact isWord_of_isDigit (all d inDigits)

theorem isRun_of_letter {w : Text} (form : isLetterWord w = true) : IsRun w := by
  obtain ⟨c, rfl, lower⟩ := isLetterWord_iff.1 form
  refine ⟨by simp, fun d member => ?_⟩
  rw [List.mem_singleton.1 member]
  exact isWord_of_isLower lower

theorem isRun_of_number {w : Text} (form : isNumberWord w = true) : IsRun w := by
  obtain ⟨filled, all⟩ := isNumberWord_iff.1 form
  exact ⟨filled, fun c member => isWord_of_isDigit (all c member)⟩

theorem not_isDigit_of_isLower {c : Char} (lower : isLower c = true) : isDigit c = false := by
  simp only [isLower, isDigit, Bool.and_eq_true, decide_eq_true_eq, Bool.and_eq_false_iff,
    decide_eq_false_iff_not] at lower ⊢
  right
  intro digit
  exact absurd (Char.le_trans lower.1 digit) (by decide)

theorem not_isDigit_of_isLetter {c : Char} (letter : isLetter c = true) : isDigit c = false := by
  cases Bool.or_eq_true _ _ ▸ letter with
  | inl lower => exact not_isDigit_of_isLower lower
  | inr upper =>
    simp only [isUpper, isDigit, Bool.and_eq_true, decide_eq_true_eq, Bool.and_eq_false_iff,
      decide_eq_false_iff_not] at upper ⊢
    right
    intro digit
    exact absurd (Char.le_trans upper.1 digit) (by decide)

theorem not_isNumberWord_of_lower {c : Char} {rest : Text} (lower : isLower c = true) :
    isNumberWord (c :: rest) = false := by
  simp [isNumberWord, not_isDigit_of_isLower lower]

theorem not_number_of_subscripted {w : Text} (form : isSubscriptedWord w = true) :
    isNumberWord w = false := by
  obtain ⟨c, stem, digits, rfl, lower, _⟩ := isSubscriptedWord_iff.1 form
  exact not_isNumberWord_of_lower lower

theorem not_number_of_letter {w : Text} (form : isLetterWord w = true) :
    isNumberWord w = false := by
  obtain ⟨c, rfl, lower⟩ := isLetterWord_iff.1 form
  exact not_isNumberWord_of_lower lower

end Operand
end OperatorCalculus
