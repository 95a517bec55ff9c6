import OperatorCalculus.Expression.Lexeme
import OperatorCalculus.Proofs.Expression.Numbering
import OperatorCalculus.Proofs.Text.Trim

-- A stretch without operands is cut from the left into blanks and lexemes, and nothing is
-- left over. What a lexeme is depends on it and on what stands behind it; only a run of
-- plain characters also depends on what stands before it.
namespace OperatorCalculus

open Scan Text

theorem Span.within {κ : Type} (s : Span κ) {t front back : Text} {i : Nat}
    (same : t = front ++ (s.value ++ back)) (place : s.index = i + front.length) :
    i ≤ s.index ∧ s.stop ≤ i + t.length := by
  rw [Span.stop, place, same]
  simp only [List.length_append]
  omega

namespace Lexeme

-- The forms of a lexeme between what stands before it and what stands behind it. How a run
-- of plain characters begins is left open.
inductive Shape (Opens : Text → Text → Prop) (front back : Text) : Text → Kind → Prop where
  | mark {c : Char} {k : Kind} (listed : Catalog.punctuationKind? c = some k) :
      Shape Opens front back [c] k
  | slash (bare : ∀ c, back.head? = some c → isLetter c = false) : Shape Opens front back ['\\'] .text
  | escape {name : Text} (named : name ≠ []) (letters : ∀ c ∈ name, isLetter c = true)
      (closed : ∀ c, back.head? = some c → isLetter c = false) :
      Shape Opens front back ('\\' :: name)
        (if Catalog.operatorClass? ('\\' :: name) = some .branch then .branch else .operator)
  | run {w : Text} (filled : w ≠ []) (plain : ∀ c ∈ w, isPlain c = true) (opens : Opens front w)
      (closed : ∀ c, back.head? = some c → isPlain c = false) : Shape Opens front back w .text

def BeginsRun (front : Text) : Prop := ∀ c, front.getLast? = some c → isPlain c = false

def FollowsEscape (front w : Text) : Prop :=
  ∃ before name, front = before ++ '\\' :: name ∧ name ≠ [] ∧ (∀ c ∈ name, isLetter c = true) ∧
    ∀ c, w.head? = some c → isLetter c = false

def Opens (front w : Text) : Prop := BeginsRun front ∨ FollowsEscape front w

def Anyhow (_front _w : Text) : Prop := True

inductive Cut : Nat → Text → List Token → Prop where
  | done {i : Nat} : Cut i [] []
  | blank {i : Nat} {w rest : Text} {ts : List Token} (filled : w ≠ [])
      (blank : ∀ c ∈ w, isBlank c = true) (later : Cut (i + w.length) rest ts) :
      Cut i (w ++ rest) ts
  | lexeme {i : Nat} {w rest : Text} {k : Kind} {ts : List Token}
      (shape : Shape Anyhow [] rest w k) (later : Cut (i + w.length) rest ts) :
      Cut i (w ++ rest) (⟨w, i, k⟩ :: ts)

variable {P : Text → Text → Prop} {front back v w rest t : Text} {k : Kind} {i : Nat}
  {ts : List Token}

theorem punctuation_listed : ∀ p ∈ Catalog.punctuation,
    isBlank p.1 = false ∧ isLetter p.1 = false ∧ p.1 ≠ '\\' ∧ p.2.isOperand = false := by
  decide

theorem mark_visible {c : Char} (listed : Catalog.punctuationKind? c = some k) :
    isBlank c = false ∧ isLetter c = false ∧ c ≠ '\\' ∧ k.isOperand = false := by
  unfold Catalog.punctuationKind? at listed
  obtain ⟨p, found, rfl⟩ := Option.map_eq_some_iff.1 listed
  have named : (p.1 == c) = true := by simpa using List.find?_some found
  obtain rfl := eq_of_beq named
  exact punctuation_listed p (List.mem_of_find?_eq_some found)

theorem isPlain_iff {c : Char} : isPlain c = true ↔
    isBlank c = false ∧ c ≠ '\\' ∧ Catalog.punctuationKind? c = none := by
  simp only [isPlain, Bool.and_eq_true, Bool.not_eq_true', bne_iff_ne, ne_eq, Option.isNone_iff_eq_none,
    and_assoc]

theorem not_isPlain_of_mark {c : Char} (listed : Catalog.punctuationKind? c = some k) :
    isPlain c = false := by
  cases plain : isPlain c with
  | false => rfl
  | true =>
    rw [(isPlain_iff.1 plain).2.2] at listed
    cases listed

theorem not_isPlain_of_blank {c : Char} (blank : isBlank c = true) : isPlain c = false := by
  simp [isPlain, blank]

theorem slash_visible : isBlank '\\' = false ∧ isPlain '\\' = false ∧ isLetter '\\' = false := by
  decide

theorem visible_of_isLetter {c : Char} (letter : isLetter c = true) : isBlank c = false :=
  isBlank_of_isWord (Operand.isWord_of_isLetter letter)

namespace Shape

theorem filled (shape : Shape P front back v k) : v ≠ [] := by
  cases shape with
  | run filled => exact filled
  | _ => simp

theorem visible (shape : Shape P front back v k) : ∀ c ∈ v, isBlank c = false := by
  cases shape with
  | mark listed => simpa using (mark_visible listed).1
  | slash bare => simpa using slash_visible.1
  | escape named letters closed =>
    exact List.forall_mem_cons.2 ⟨slash_visible.1, fun c member => visible_of_isLetter (letters c member)⟩
  | run filled plain opens closed => exact fun c member => (isPlain_iff.1 (plain c member)).1

theorem not_operand (shape : Shape P front back v k) : k.isOperand = false := by
  cases shape with
  | mark listed => exact (mark_visible listed).2.2.2
  | slash bare => rfl
  | escape named letters closed => split <;> rfl
  | run filled plain opens closed => rfl

theorem opened {Q : Text → Text → Prop} {front' : Text} (shape : Shape P front back v k)
    (opens : (∀ c ∈ v, isPlain c = true) → Q front' v) : Shape Q front' back v k := by
  cases shape with
  | mark listed => exact .mark listed
  | slash bare => exact .slash bare
  | escape named letters closed => exact .escape named letters closed
  | run filled plain _ closed => exact .run filled plain (opens plain) closed

theorem of_slash {x name : Text} (shape : Shape P front back (x ++ '\\' :: name) k) :
    x = [] ∧ (∀ c ∈ name, isLetter c = true) ∧
      (∀ c, back.head? = some c → isLetter c = false) ∧
      (name ≠ [] → k = .operator ∨ k = .branch) := by
  generalize same : x ++ '\\' :: name = v at shape
  cases shape with
  | @mark c k listed =>
    have inside : '\\' ∈ [c] := same ▸ List.mem_append_right x List.mem_cons_self
    exact absurd (List.mem_singleton.1 inside).symm (mark_visible listed).2.2.1
  | slash bare =>
    cases x with
    | nil =>
      obtain ⟨_, rfl⟩ := List.cons.inj same
      exact ⟨rfl, nofun, bare, fun named => absurd rfl named⟩
    | cons d x => simp at same
  | @escape letters' named letters closed =>
    cases x with
    | nil =>
      obtain ⟨_, rfl⟩ := List.cons.inj same
      refine ⟨rfl, letters, closed, fun _ => ?_⟩
      split
      · exact .inr rfl
      · exact .inl rfl
    | cons d x =>
      obtain ⟨_, rfl⟩ := List.cons.inj same
      have letter := letters '\\' (List.mem_append_right x List.mem_cons_self)
      rw [slash_visible.2.2] at letter
      cases letter
  | run filled plain opens closed =>
    have apart := plain '\\' (same ▸ List.mem_append_right x List.mem_cons_self)
    rw [slash_visible.2.1] at apart
    cases apart

end Shape

theorem kindOf_run (filled : w ≠ []) (plain : ∀ c ∈ w, isPlain c = true) : kindOf w = .text := by
  obtain ⟨c, more, rfl⟩ := List.exists_cons_of_ne_nil filled
  obtain ⟨_, apart, unlisted⟩ := isPlain_iff.1 (plain c (by simp))
  cases more with
  | nil => simp [kindOf, unlisted]
  | cons d more => simp [kindOf, apart]

theorem kindOf_escape {name : Text} (named : name ≠ []) : kindOf ('\\' :: name) =
    if Catalog.operatorClass? ('\\' :: name) = some .branch then .branch else .operator := by
  obtain ⟨c, more, rfl⟩ := List.exists_cons_of_ne_nil named
  simp only [kindOf, bne_self_eq_false, Bool.false_eq_true, if_false, beq_iff_eq]

theorem longest_front (before : Option Char) (c : Char) (t : Text) :
    ∃ w rest, c :: t = w ++ rest ∧ w ≠ [] ∧ longest before (c :: t) = some w.length ∧
      ((∀ d ∈ w, isBlank d = true) ∨ Shape Anyhow [] rest w (kindOf w)) := by
  have cut : ∀ p : Char → Bool, c :: t = (c :: t.takeWhile p) ++ t.dropWhile p := by
    intro p
    rw [List.cons_append, List.takeWhile_append_dropWhile]
  have within : ∀ p : Char → Bool, ∀ d ∈ t.takeWhile p, p d = true := by
    intro p d member
    exact List.all_eq_true.1 List.all_takeWhile d member
  by_cases blank : isBlank c = true
  · refine ⟨_, _, cut isBlank, by simp, by simp [longest, blank], .inl ?_⟩
    exact List.forall_mem_cons.2 ⟨blank, within isBlank⟩
  · by_cases slash : c = '\\'
    · subst slash
      refine ⟨_, _, cut isLetter, by simp, by simp [longest, slash_visible.1], .inr ?_⟩
      have closed := head_dropWhile isLetter t
      by_cases named : t.takeWhile isLetter = []
      · rw [named]
        exact .slash closed
      · rw [kindOf_escape named]
        exact .escape named (within isLetter) closed
    · cases listed : Catalog.punctuationKind? c with
      | some k =>
        refine ⟨[c], t, rfl, by simp, by simp [longest, blank, slash, listed], .inr ?_⟩
        have kind : kindOf [c] = k := by simp [kindOf, listed]
        rw [kind]
        exact .mark listed
      | none =>
        have plain : ∀ d ∈ c :: t.takeWhile isPlain, isPlain d = true :=
          List.forall_mem_cons.2 ⟨isPlain_iff.2 ⟨by simpa using blank, slash, listed⟩, within isPlain⟩
        refine ⟨_, _, cut isPlain, by simp, by simp [longest, blank, slash, listed], .inr ?_⟩
        rw [kindOf_run (by simp) plain]
        exact .run (by simp) plain trivial (head_dropWhile isPlain t)

theorem cut_run (offset : Nat) (before : Option Char) (position : Nat) (t : Text) :
    Cut (offset + position) t
      (((Scan.run longest before position 0 t).filter fun hit => !allBlank hit.2).map fun hit =>
        ⟨hit.2, offset + hit.1, kindOf hit.2⟩) := by
  induction size : t.length using Nat.strongRecOn generalizing t before position with
  | ind n ih =>
    cases t with
    | nil => exact .done
    | cons c t =>
      obtain ⟨w, rest, same, filled, hit, form⟩ := longest_front before c t
      rw [same] at hit size ⊢
      have shorter : rest.length < n := by
        have := List.length_pos_iff.2 filled
        rw [List.length_append] at size
        omega
      have later := ih rest.length shorter (behind before w) (position + w.length) rest rfl
      rw [← Nat.add_assoc] at later
      rw [run_of_match position filled hit]
      rcases form with blank | shape
      · have dropped : allBlank w = true := List.all_eq_true.2 blank
        rw [List.filter_cons_of_neg (by simp [dropped])]
        exact .blank filled blank later
      · have kept : allBlank w = false := by
          obtain ⟨d, more, rfl⟩ := List.exists_cons_of_ne_nil filled
          simp [allBlank, shape.visible d (by simp)]
        rw [List.filter_cons_of_pos (by simp [kept]), List.map_cons]
        exact .lexeme shape later

theorem cut_ofGap (offset : Nat) (gap : Text) : Cut offset gap (ofGap offset gap) :=
  cut_run offset none 0 gap

namespace Cut

theorem beginsRun_append (front : Text) (filled : w ≠ []) (apart : ∀ c ∈ w, isPlain c = false) :
    BeginsRun (front ++ w) := by
  intro c last
  rw [List.getLast?_append, List.getLast?_eq_some_getLast filled, Option.some_or] at last
  obtain rfl := Option.some.inj last
  exact apart _ (List.getLast_mem filled)

-- What a run may begin behind, given the text before it and the character that it begins with.
def Ready (front t : Text) : Prop :=
  ∀ c v, t = c :: v → isPlain c = true → ∀ u, u.head? = some c → Opens front u

theorem ready_behind_blank (front : Text) (filled : w ≠ []) (blank : ∀ c ∈ w, isBlank c = true) :
    Ready (front ++ w) t :=
  fun _ _ _ _ _ _ => .inl <| beginsRun_append front filled fun c member =>
    not_isPlain_of_blank (blank c member)

theorem ready_behind (shape : Shape Anyhow [] rest w k) (front : Text) : Ready (front ++ w) rest := by
  intro c v same plain u head
  cases shape with
  | @mark d k listed =>
    left
    refine beginsRun_append front (List.cons_ne_nil d []) fun e member => ?_
    rw [List.mem_singleton.1 member]
    exact not_isPlain_of_mark listed
  | slash bare =>
    left
    refine beginsRun_append front (List.cons_ne_nil _ []) fun e member => ?_
    rw [List.mem_singleton.1 member]
    exact slash_visible.2.1
  | @escape name named letters closed =>
    right
    refine ⟨front, name, rfl, named, letters, ?_⟩
    intro e first
    rw [head] at first
    obtain rfl := Option.some.inj first
    exact closed c (by rw [same]; rfl)
  | run filled all opens closed =>
    have apart := closed c (by rw [same]; rfl)
    rw [plain] at apart
    cases apart

def Piece (i : Nat) (front t : Text) (tok : Token) : Prop :=
  ∃ before back, t = before ++ (tok.value ++ back) ∧ tok.index = i + before.length ∧
    Shape Opens (front ++ before) back tok.value tok.kind

theorem Piece.behind {tok : Token} (piece : Piece (i + w.length) (front ++ w) rest tok) :
    Piece i front (w ++ rest) tok := by
  obtain ⟨before, back, same, place, shape⟩ := piece
  refine ⟨w ++ before, back, by rw [same, List.append_assoc], ?_, by rwa [← List.append_assoc]⟩
  rw [place, List.length_append, Nat.add_assoc]

theorem split_ready (cut : Cut i t ts) (ready : Ready front t) : ∀ tok ∈ ts, Piece i front t tok := by
  induction cut generalizing front with
  | done => exact fun tok member => nomatch member
  | blank filled blank later ih =>
    exact fun tok member => (ih (ready_behind_blank front filled blank) tok member).behind
  | @lexeme i w rest k ts shape later ih =>
    intro tok member
    rcases List.mem_cons.1 member with rfl | member
    · refine ⟨[], rest, rfl, rfl, shape.opened ?_⟩
      intro plain
      obtain ⟨c, more, rfl⟩ := List.exists_cons_of_ne_nil shape.filled
      rw [List.append_nil]
      exact ready c (more ++ rest) rfl (plain c (by simp)) _ rfl
    · exact (ih (ready_behind shape front) tok member).behind

theorem split (cut : Cut i t ts) : ∀ tok ∈ ts, Piece i [] t tok := by
  have ready : Ready [] t := fun _ _ _ _ _ _ => .inl fun _ last => nomatch last
  exact cut.split_ready ready

theorem within (cut : Cut i t ts) {tok : Token} (member : tok ∈ ts) :
    i ≤ tok.index ∧ tok.stop ≤ i + t.length := by
  obtain ⟨front, back, same, place, _⟩ := cut.split tok member
  exact tok.within same place

theorem ordered (cut : Cut i t ts) : ts.Pairwise fun a b => a.stop ≤ b.index := by
  induction cut with
  | done => exact List.Pairwise.nil
  | blank filled blank later ih => exact ih
  | lexeme shape later ih => exact List.Pairwise.cons (fun tok member => (later.within member).1) ih

theorem covers (cut : Cut i t ts) {before after : Text} {c : Char} (same : t = before ++ c :: after)
    (visible : isBlank c = false) :
    ∃ tok ∈ ts, tok.index ≤ i + before.length ∧ i + before.length < tok.stop := by
  induction cut generalizing before with
  | done => simp at same
  | @blank i w rest ts filled blank later ih =>
    cases Nat.lt_or_ge before.length w.length with
    | inl inside =>
      obtain ⟨between, rfl, back⟩ := Reads.cut_behind same.symm (Nat.le_of_lt inside)
      cases between with
      | nil => simp at inside
      | cons d between =>
        obtain rfl := (List.cons.inj back).1
        rw [blank c (by simp)] at visible
        cases visible
    | inr passed =>
      obtain ⟨x, rfl, back⟩ := Reads.cut_behind same passed
      obtain ⟨tok, member, low, high⟩ := ih back
      refine ⟨tok, member, ?_⟩
      rw [List.length_append]
      omega
  | @lexeme i w rest k ts shape later ih =>
    cases Nat.lt_or_ge before.length w.length with
    | inl inside =>
      exact ⟨_, List.mem_cons_self, Nat.le_add_right _ _, Nat.add_lt_add_left inside i⟩
    | inr passed =>
      obtain ⟨x, rfl, back⟩ := Reads.cut_behind same passed
      obtain ⟨tok, member, low, high⟩ := ih back
      refine ⟨tok, List.mem_cons_of_mem _ member, ?_⟩
      rw [List.length_append]
      omega

end Cut
end Lexeme
end OperatorCalculus
