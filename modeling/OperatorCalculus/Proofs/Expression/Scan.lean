import OperatorCalculus.Expression.Scan

namespace OperatorCalculus

namespace Text

def IsRun (w : Text) : Prop := w ≠ [] ∧ ∀ c ∈ w, isWord c = true

theorem IsRun.tail {u v : Text} (run : IsRun (u ++ v)) (filled : v ≠ []) : IsRun v :=
  ⟨filled, fun c member => run.2 c (List.mem_append_right _ member)⟩

end Text

namespace Scan

open Text

def behind (before : Option Char) : Text → Option Char
  | [] => before
  | c :: rest => behind (some c) rest

theorem behind_append (before : Option Char) (u v : Text) :
    behind before (u ++ v) = behind (behind before u) v := by
  induction u generalizing before with
  | nil => rfl
  | cons c rest ih => exact ih (some c)

theorem behind_concat (before : Option Char) (u : Text) (c : Char) :
    behind before (u ++ [c]) = some c := by
  rw [behind_append]
  rfl

theorem behind_mem {w : Text} (filled : w ≠ []) (before : Option Char) :
    ∃ c ∈ w, behind before w = some c := by
  induction w generalizing before with
  | nil => exact absurd rfl filled
  | cons c rest ih =>
    by_cases last : rest = []
    · subst last
      exact ⟨c, by simp, rfl⟩
    · obtain ⟨d, member, same⟩ := ih last (some c)
      exact ⟨d, by simp [member], same⟩

theorem not_opens_behind_run {w : Text} (run : IsRun w) (before : Option Char) :
    opensWord (behind before w) = false := by
  obtain ⟨c, member, same⟩ := behind_mem run.1 before
  simp [same, opensWord, run.2 c member]

theorem closesWord_cons (c : Char) (rest : Text) : closesWord (c :: rest) = !isWord c := rfl

theorem not_closes_run {w : Text} (run : IsRun w) (rest : Text) : closesWord (w ++ rest) = false := by
  cases w with
  | nil => exact absurd rfl run.1
  | cons c w => simp [closesWord_cons, run.2 c (by simp)]

theorem run_dropWhile (t : Text) : closesWord (t.dropWhile isWord) = true := by
  cases rest : t.dropWhile isWord with
  | nil => rfl
  | cons c r =>
    have apart := List.head_dropWhile_not isWord (l := t) (by simp [rest])
    simp only [rest, List.head_cons] at apart
    simpa [closesWord_cons] using apart

-- A text is read run by run, and character by character between the runs.
@[elab_as_elim]
theorem runInduction {P : Text → Prop} (nil : P [])
    (mark : ∀ c rest, isWord c = false → P rest → P (c :: rest))
    (word : ∀ w rest, IsRun w → closesWord rest = true → P rest → P (w ++ rest)) (t : Text) :
    P t := by
  induction size : t.length using Nat.strongRecOn generalizing t with
  | ind n ih =>
    cases t with
    | nil => exact nil
    | cons c rest =>
      cases kind : isWord c with
      | false => exact mark c rest kind (ih rest.length (by simp [← size]) rest rfl)
      | true =>
        have split := List.takeWhile_append_dropWhile (p := isWord) (l := c :: rest)
        have run : IsRun ((c :: rest).takeWhile isWord) :=
          ⟨by simp [kind], fun d member => List.all_eq_true.1 List.all_takeWhile d member⟩
        have shorter : ((c :: rest).dropWhile isWord).length < n := by
          have := List.length_pos_iff.2 run.1
          have total := congrArg List.length split
          rw [List.length_append, size] at total
          omega
        rw [← split]
        exact word _ _ run (run_dropWhile _) (ih _ shorter _ rfl)

theorem takeWhile_run {w rest : Text} (word : ∀ c ∈ w, isWord c = true)
    (closed : closesWord rest = true) : (w ++ rest).takeWhile isWord = w := by
  rw [List.takeWhile_append_of_pos word]
  cases rest with
  | nil => simp
  | cons c rest =>
    have apart : isWord c = false := by simpa [closesWord_cons] using closed
    simp [apart]

theorem run_unique {w v r y : Text} (first : IsRun w) (closedR : closesWord r = true)
    (second : IsRun v) (closedY : closesWord y = true) (same : w ++ r = v ++ y) :
    w = v ∧ r = y := by
  have front : w = v := by
    rw [← takeWhile_run first.2 closedR, same, takeWhile_run second.2 closedY]
  subst front
  exact ⟨rfl, List.append_cancel_left same⟩

theorem run_passed {w r x z : Text} {before : Option Char} (run : IsRun w)
    (same : w ++ r = x ++ z) (filled : x ≠ []) (opens : opensWord (behind before x) = true) :
    ∃ x', x = w ++ x' ∧ r = x' ++ z := by
  rcases List.append_eq_append_iff.1 same with ⟨x', front, back⟩ | ⟨c, front, _⟩
  · exact ⟨x', front, back⟩
  · have inside : IsRun x := ⟨filled, fun d member => run.2 d (by simp [front, member])⟩
    rw [not_opens_behind_run inside] at opens
    cases opens

variable {m : Matcher} {before : Option Char} {position : Nat}

theorem run_skip (m : Matcher) (before : Option Char) (position : Nat) (w r : Text) :
    run m before position w.length (w ++ r) = run m (behind before w) (position + w.length) 0 r := by
  induction w generalizing before position with
  | nil => rfl
  | cons c rest ih =>
    simp only [List.length_cons, List.cons_append, run, ih, behind]
    congr 1
    omega

theorem run_of_none {c : Char} {rest : Text} (position : Nat)
    (none : m before (c :: rest) = none) :
    run m before position 0 (c :: rest) = run m (some c) (position + 1) 0 rest := by
  simp [run, none]

theorem run_of_match {w r : Text} (position : Nat) (filled : w ≠ [])
    (hit : m before (w ++ r) = some w.length) :
    run m before position 0 (w ++ r) =
      (position, w) :: run m (behind before w) (position + w.length) 0 r := by
  cases w with
  | nil => exact absurd rfl filled
  | cons c w =>
    have skip := run_skip m (some c) (position + 1) w r
    simp only [List.cons_append, List.length_cons] at hit ⊢
    simp only [run, hit, skip, behind]
    simp [Nat.add_assoc, Nat.add_comm 1]

theorem run_of_quiet (position : Nat) (w r : Text)
    (quiet : ∀ u c v, w = u ++ c :: v → m (behind before u) (c :: v ++ r) = none) :
    run m before position 0 (w ++ r) = run m (behind before w) (position + w.length) 0 r := by
  induction w generalizing before position with
  | nil => rfl
  | cons c rest ih =>
    have later := @ih (some c) (position + 1) fun u d v same =>
      quiet (c :: u) d v (by simp [same])
    have first : m before (c :: (rest ++ r)) = none := quiet [] c rest rfl
    rw [List.cons_append, run_of_none _ first, later, List.length_cons, behind]
    congr 1
    omega

def wordMatcher (good : Text → Bool) : Matcher := fun before t =>
  if opensWord before && good (t.takeWhile isWord) then some (t.takeWhile isWord).length else none

structure Alone (before : Option Char) (x v y : Text) : Prop where
  run : IsRun v
  opens : opensWord (behind before x) = true
  closes : closesWord y = true

variable {good : Text → Bool}

theorem wordMatcher_of_closed {t : Text} (empty : good [] = false) (before : Option Char)
    (closed : closesWord t = true) : wordMatcher good before t = none := by
  have none : t.takeWhile isWord = [] := takeWhile_run (w := []) (by simp) closed
  simp [wordMatcher, none, empty]

theorem wordMatcher_of_unopened (before : Option Char) (t : Text)
    (inside : opensWord before = false) : wordMatcher good before t = none := by
  simp [wordMatcher, inside]

theorem run_wordMatcher_run {w r : Text} (run : IsRun w) (closed : closesWord r = true) :
    Scan.run (wordMatcher good) before position 0 (w ++ r) =
      (if opensWord before && good w then [(position, w)] else []) ++
        Scan.run (wordMatcher good) (behind before w) (position + w.length) 0 r := by
  have whole := takeWhile_run run.2 closed
  split
  · next hit =>
    rw [run_of_match _ run.1 (by simp only [wordMatcher, whole, if_pos hit])]
    rfl
  · next miss =>
    refine run_of_quiet _ w r fun u c v same => ?_
    cases u with
    | nil =>
      rw [List.nil_append] at same
      rw [← same, wordMatcher, whole, behind, if_neg miss]
    | cons d u =>
      have inside : IsRun (d :: u) := ⟨by simp, fun e member => run.2 e (by
        rw [same]
        exact List.mem_append_left _ member)⟩
      exact wordMatcher_of_unopened _ _ (not_opens_behind_run inside before)

theorem mem_run_wordMatcher (empty : good [] = false) {i : Nat} {v : Text} (t : Text) :
    (i, v) ∈ run (wordMatcher good) before position 0 t ↔
      ∃ x y, t = x ++ (v ++ y) ∧ i = position + x.length ∧ good v = true ∧ Alone before x v y := by
  induction t using runInduction generalizing before position with
  | nil =>
    constructor
    · intro member
      simp [run] at member
    · intro found
      obtain ⟨x, y, same, _, _, alone⟩ := found
      simp [alone.run.1] at same
  | mark c rest apart ih =>
    have none := wordMatcher_of_closed (t := c :: rest) empty before (by simp [closesWord_cons, apart])
    rw [run_of_none _ none, ih]
    constructor
    · intro found
      obtain ⟨x, y, same, place, hit, alone⟩ := found
      exact ⟨c :: x, y, by simp [same], by simp [place]; omega, hit, alone.run, alone.opens,
        alone.closes⟩
    · intro found
      obtain ⟨x, y, same, place, hit, alone⟩ := found
      cases x with
      | nil =>
        have closed := not_closes_run alone.run y
        rw [List.nil_append] at same
        rw [← same] at closed
        simp [closesWord_cons, apart] at closed
      | cons d x =>
        simp only [List.cons_append, List.cons.injEq] at same
        obtain ⟨rfl, same⟩ := same
        exact ⟨x, y, same, by simp [place]; omega, hit, alone.run, alone.opens, alone.closes⟩
  | word w rest run closed ih =>
    rw [run_wordMatcher_run run closed, List.mem_append, ih]
    constructor
    · rintro (first | ⟨x, y, same, place, hit, alone⟩)
      · split at first
        · next hit =>
          simp only [List.mem_singleton, Prod.mk.injEq] at first
          obtain ⟨rfl, rfl⟩ := first
          simp only [Bool.and_eq_true] at hit
          exact ⟨[], rest, rfl, rfl, hit.2, run, hit.1, closed⟩
        · simp at first
      · refine ⟨w ++ x, y, by simp [same], by simp [place]; omega, hit, alone.run, ?_, alone.closes⟩
        rw [behind_append]
        exact alone.opens
    · intro found
      obtain ⟨x, y, same, place, hit, alone⟩ := found
      cases x with
      | nil =>
        obtain ⟨rfl, rfl⟩ := run_unique run closed alone.run alone.closes same
        have opens : opensWord before = true := alone.opens
        left
        simp [opens, hit, place]
      | cons d x =>
        obtain ⟨x', front, back⟩ := run_passed run same (by simp) alone.opens
        have opens := alone.opens
        rw [front, behind_append] at opens
        exact .inr ⟨x', y, back, by simp [place, front]; omega, hit, alone.run, opens, alone.closes⟩

end Scan
end OperatorCalculus
