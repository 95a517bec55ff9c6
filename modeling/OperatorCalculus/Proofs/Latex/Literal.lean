import OperatorCalculus.Text.Basic

-- String literals between single quotes, as the web front end reads them. What a backslash
-- denotes together with what it escapes is left open; only escaped backslashes and escaped
-- quotes denote themselves. A text in which one mark is escaped is read back when it does
-- not hold the other, and not otherwise.
namespace OperatorCalculus

namespace Literal

-- What stands behind a backslash denotes one character or none, or it is no escape. The
-- number says how many characters behind the backslash the escape takes.
structure Escapes where
  escape : Text → Option (Option Char × Nat)
  backslash : ∀ t, escape ('\\' :: t) = some (some '\\', 1)
  quote : ∀ t, escape ('\x27' :: t) = some (some '\x27', 1)
  takes : ∀ t denoted used, escape t = some (denoted, used) → 0 < used

def follow (denoted : Option Char) (found : Text × Text) : Text × Text :=
  (denoted.toList ++ found.1, found.2)

-- Reads from behind the opening quote: the value, and what stands behind the closing
-- quote. Skip counts the characters of the last escape that are still to be passed.
def readFrom (e : Escapes) (skip : Nat) : Text → Option (Text × Text)
  | [] => none
  | c :: rest =>
    match skip with
    | n + 1 => readFrom e n rest
    | 0 =>
      if c == '\x27' then some ([], rest)
      else if c == '\\' then
        match e.escape rest with
        | some (denoted, used) => (readFrom e used rest).map (follow denoted)
        | none => none
      else (readFrom e 0 rest).map (follow (some c))

def read (e : Escapes) (t : Text) : Option (Text × Text) := readFrom e 0 t

def isMark (c : Char) : Bool := c == '\x27' || c == '\\'

theorem isMark_iff {c : Char} : isMark c = true ↔ c = '\x27' ∨ c = '\\' := by
  rw [isMark, Bool.or_eq_true, beq_iff_eq, beq_iff_eq]

def places (t : Text) : Nat := t.length + t.countP isMark

theorem places_cons (c : Char) (t : Text) :
    places (c :: t) = places t + if isMark c then 2 else 1 := by
  unfold places
  rw [List.length_cons, List.countP_cons]
  split <;> omega

theorem places_follow (denoted : Option Char) (t : Text) :
    places (denoted.toList ++ t) ≤ places t + 2 := by
  cases denoted with
  | none => exact Nat.le_add_right _ _
  | some c =>
    rw [Option.toList_some, List.singleton_append, places_cons]
    split <;> omega

variable {e : Escapes} {value rest : Text}

theorem readFrom_cases {c : Char} {raw : Text} {found : Text × Text}
    (read : readFrom e 0 (c :: raw) = some found) :
    (isMark c = true ∧ found = ([], raw)) ∨
    (∃ denoted used later, e.escape raw = some (denoted, used) ∧
      readFrom e used raw = some later ∧ found = follow denoted later) ∨
    (isMark c = false ∧ ∃ later, readFrom e 0 raw = some later ∧ found = follow (some c) later) := by
  simp only [readFrom] at read
  split at read
  · next quote =>
    left
    exact ⟨by rw [isMark, quote, Bool.true_or], (Option.some.inj read).symm⟩
  · next unquoted =>
    right
    split at read
    · left
      split at read
      · next denoted used escape =>
        obtain ⟨later, found, same⟩ := Option.map_eq_some_iff.1 read
        exact ⟨denoted, used, later, escape, found, same.symm⟩
      · cases read
    · next unescaped =>
      right
      obtain ⟨later, found, same⟩ := Option.map_eq_some_iff.1 read
      exact ⟨Bool.or_eq_false_iff.2 ⟨eq_false_of_ne_true unquoted, eq_false_of_ne_true unescaped⟩,
        later, found, same.symm⟩

theorem places_le_of_readFrom (raw : Text) {skip : Nat} {found : Text × Text}
    (read : readFrom e skip raw = some found) :
    places found.1 + found.2.length + skip < raw.length := by
  induction raw generalizing skip found with
  | nil => cases read
  | cons c raw ih =>
    rw [List.length_cons]
    cases skip with
    | succ n =>
      have later := ih read
      omega
    | zero =>
      rcases readFrom_cases read with ⟨_, rfl⟩ | ⟨denoted, used, later, escape, tail, rfl⟩ |
        ⟨plain, later, tail, rfl⟩
      · exact Nat.lt_succ_of_le (Nat.le_of_eq (Nat.zero_add _))
      · have short := ih tail
        have taken := e.takes _ _ _ escape
        have grown := places_follow denoted later.1
        simp only [follow]
        omega
      · have short := ih tail
        have grown := places_cons c later.1
        rw [plain] at grown
        simp only [follow, Option.toList_some, List.singleton_append]
        simp only [Bool.false_eq_true, if_false] at grown
        omega

theorem length_replaceChar {m : Char} (mark : isMark m = true) (t : Text) :
    (Text.replaceChar m ['\\', m] t).length + t.countP (fun c => isMark c && c != m) = places t := by
  induction t with
  | nil => rfl
  | cons c t ih =>
    unfold Text.replaceChar at ih ⊢
    rw [List.flatMap_cons, List.length_append, List.countP_cons, places_cons]
    by_cases same : c = m
    · subst same
      simp only [BEq.rfl, if_true, bne_self_eq_false, Bool.and_false, mark]
      simp only [List.length_cons, List.length_nil, Bool.false_eq_true, if_false]
      omega
    · have other : (c != m) = true := bne_iff_ne.2 same
      rw [other, Bool.and_true, if_neg (by simpa using same), List.length_singleton]
      split <;> omega

theorem read_escaped_mark {m : Char} (mark : isMark m = true) (raw : Text) :
    readFrom e 0 ('\\' :: m :: raw) = (readFrom e 0 raw).map (follow (some m)) := by
  rcases isMark_iff.1 mark with rfl | rfl
  · simp [readFrom, e.quote]
  · simp [readFrom, e.backslash]

theorem readFrom_plain {c : Char} (plain : isMark c = false) (raw : Text) :
    readFrom e 0 (c :: raw) = (readFrom e 0 raw).map (follow (some c)) := by
  obtain ⟨unquoted, unescaped⟩ := Bool.or_eq_false_iff.1 plain
  simp [readFrom, unquoted, unescaped]

theorem read_replaceChar {m : Char} (mark : isMark m = true) {t : Text}
    (only : ∀ c ∈ t, isMark c = true → c = m) (after : Text) :
    read e (Text.replaceChar m ['\\', m] t ++ '\x27' :: after) = some (t, after) := by
  unfold read Text.replaceChar
  induction t with
  | nil => rfl
  | cons c t ih =>
    have tail := ih fun d member => only d (List.mem_cons_of_mem c member)
    rw [List.flatMap_cons, List.append_assoc]
    by_cases same : c = m
    · subst same
      rw [if_pos BEq.rfl, List.cons_append, List.singleton_append, read_escaped_mark mark, tail]
      rfl
    · have plain : isMark c = false := by
        cases other : isMark c with
        | false => rfl
        | true => exact absurd (only c List.mem_cons_self other) same
      rw [if_neg (by simpa using same), List.singleton_append, readFrom_plain plain, tail]
      rfl

theorem read_replaceChar_iff {m other : Char} (marks : ∀ c, isMark c = true ↔ c = m ∨ c = other)
    (apart : other ≠ m) (t after : Text) :
    read e (Text.replaceChar m ['\\', m] t ++ '\x27' :: after) = some (t, after) ↔ other ∉ t := by
  have mark : isMark m = true := (marks m).2 (.inl rfl)
  constructor
  · intro found inside
    -- A value has no literal shorter than its places, and an escape was saved here.
    have fits := places_le_of_readFrom _ found
    rw [List.length_append, List.length_cons, ← length_replaceChar mark] at fits
    have none : t.countP (fun c => isMark c && c != m) = 0 := by
      simp only at fits
      omega
    have unmarked := List.countP_eq_zero.1 none other inside
    rw [(marks other).2 (.inr rfl), Bool.true_and, bne_iff_ne] at unmarked
    exact unmarked apart
  · intro absent
    apply read_replaceChar mark
    intro c member marked
    cases (marks c).1 marked with
    | inl same => exact same
    | inr same => exact absurd (same ▸ member) absent

theorem read_plain_iff (t after : Text) : read e (t ++ '\x27' :: after) = some (t, after) ↔
    ∀ c ∈ t, isMark c = false := by
  constructor
  · intro found c member
    have fits := places_le_of_readFrom _ found
    simp only [places, List.length_append, List.length_cons] at fits
    have none : t.countP isMark = 0 := by omega
    exact eq_false_of_ne_true (List.countP_eq_zero.1 none c member)
  · intro plain
    unfold read
    induction t with
    | nil => rfl
    | cons c t ih =>
      have tail := ih fun d member => plain d (List.mem_cons_of_mem c member)
      rw [List.cons_append, readFrom_plain (plain c List.mem_cons_self), tail]
      rfl

end Literal
end OperatorCalculus
