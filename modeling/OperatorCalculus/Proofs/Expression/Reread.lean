import Mathlib.Data.List.Permutation
import OperatorCalculus.Proofs.Expression.Exchange
import OperatorCalculus.Proofs.Expression.LeftToRight

-- A canonical form is itself an expression, and its numbers are operands again. Read once more
-- it keeps its numbers exactly when nothing else in it is an operand: when no number has
-- grown together with a word beside it, and no name has become a call.
namespace OperatorCalculus

open Scan Text Operand

namespace Expression

-- The operands are written as their own numbers.
def OwnNumbers (left right : Text) : Prop :=
  ∀ v, v ∈ operands left ∨ v ∈ operands right → (numbering left right).written v = v

def CallFree (e : Text) : Prop := ∀ o ∈ Operand.extract e, o.kind ≠ .function

-- No name of a call stands before an opening parenthesis outside the calls.
def Finished (e : Text) : Prop :=
  ∀ n ∈ callNames, ∀ i ∈ Text.occurrences (n.1 ++ ['(']) e,
    ∃ o ∈ Operand.extract e, o.kind = .function ∧ Span.overlaps ⟨n.1, i, .function⟩ o = true

-- Read again, the form of such an expression has the same gaps, whatever numbers it has.
structure Tidy (e : Text) : Prop where
  unglued : Unglued e
  finished : Finished e

def calls (e : Text) : List Token :=
  (Scan.all call e).map fun hit => ⟨hit.2, hit.1, .function⟩

theorem mem_calls_iff {e : Text} {o : Token} :
    o ∈ calls e ↔ o ∈ Operand.extract e ∧ o.kind = .function := by
  obtain ⟨ps, reads, rfl⟩ := Reads.exists_of_text e false
  rw [calls, List.mem_map, reads.extract_text]
  constructor
  · rintro ⟨⟨i, v⟩, hit, rfl⟩
    exact ⟨reads.function_hit_iff.1 hit, rfl⟩
  · obtain ⟨v, i, k⟩ := o
    rintro ⟨member, rfl⟩
    exact ⟨(i, v), reads.function_hit_iff.2 member, rfl⟩

theorem tidy_of_plain {e : Text} (plain : '(' ∉ e) : Tidy e := by
  constructor
  · intro o member kind
    obtain ⟨ps, reads, rfl⟩ := Reads.exists_of_text e false
    rw [reads.extract_text] at member
    obtain ⟨before, after, split, _⟩ := Reading.mem_tokens.1 member
    rcases reads.operand_cases (k := o.kind) (v := o.value) (by simp [split]) with
      ⟨_, n, _, arguments, form, _⟩ | ⟨other, _⟩ | ⟨other, _⟩
    · exact absurd (by simp [split, form, Part.text]) plain
    · cases kind.symm.trans other
    · cases kind.symm.trans other
  · intro n _ i place
    obtain ⟨before, after, rfl, _⟩ := Text.mem_occurrences.1 place
    exact absurd (by simp) plain

def isTidy (e : Text) : Bool :=
  let found := calls e
  !e.elem '(' ||
    (found.all fun o => opensWord (charBefore? e o.index) && closesWord (e.drop o.stop)) &&
    callNames.all fun n => (Text.occurrences (n.1 ++ ['(']) e).all fun i =>
      found.any fun o => Span.overlaps ⟨n.1, i, .function⟩ o

theorem tidy_of_isTidy {e : Text} (passed : isTidy e = true) : Tidy e := by
  simp only [isTidy, Bool.or_eq_true, Bool.and_eq_true, Bool.not_eq_true', List.all_eq_true,
    List.any_eq_true, mem_calls_iff] at passed
  rcases passed with plain | ⟨apart, inside⟩
  · exact tidy_of_plain (by simpa using plain)
  · refine ⟨fun o member kind => apart o ⟨member, kind⟩, fun n inNames i place => ?_⟩
    obtain ⟨o, ⟨member, kind⟩, meet⟩ := inside n inNames i place
    exact ⟨o, member, kind, meet⟩

end Expression

def Part.literal (image : Text → Text) : Part → Part
  | .gap t => .gap t
  | .operand _ v => .operand .literal (image v)

namespace Reading

variable {ps qs : Reading} {image : Text → Text} {ns : Numbering} {escaped : Bool}
  {before : Option Char}

def literals (image : Text → Text) (ps : Reading) : Reading := ps.map (Part.literal image)

theorem text_literals (image : Text → Text) (ps : Reading) :
    text (literals image ps) = text (rename image ps) := by
  induction ps with
  | nil => rfl
  | cons p rest ih =>
    unfold literals at ih ⊢
    cases p <;> simp [Part.literal, Part.rename, Part.text, ih]

theorem aligned_literals (image : Text → Text) (ps : Reading) :
    Aligned id image (literals image ps) ps := by
  induction ps with
  | nil => exact .nil
  | cons p rest ih =>
    cases p with
    | gap t => exact .cons (.gap t) ih
    | operand k v => exact .cons (.operand .literal k rfl) ih

def Quiet (image : Text → Text) (ps : Reading) : Prop :=
  ∀ as w bs, ps = as ++ .gap w :: bs → IsRun w → closesWord (text bs) = true →
    NoCallIn w (text (rename image bs))

theorem Quiet.tail {p : Part} (quiet : Quiet image (p :: ps)) : Quiet image ps :=
  fun as w bs same => quiet (p :: as) w bs (by rw [same]; rfl)

theorem closesWord_literals (reads : Reads escaped ps) (numbers : Numbers image ps) :
    closesWord (text (literals image ps)) = closesWord (text ps) := by
  rw [text_literals]
  exact closesWord_rename (reads.headsKept_of_runs fun v member => isRun_of_number (numbers v member))

theorem reads_number {v : Text} {rest : Reading} (number : isNumberWord v = true)
    (closed : closesWord (text rest) = true) (later : Reads false rest) :
    Reads escaped (.operand .literal v :: rest) := by
  have form := Part.ofWord_number escaped number
  have own : Reads escaped (Part.ofWord escaped v :: rest) :=
    .word (isRun_of_number number) closed (noCallIn_operand form closed) later
  rwa [form] at own

theorem reads_literals (reads : Reads escaped ps) (spaced : Spaced before ps)
    (numbers : Numbers image ps) (quiet : Quiet image ps) : Reads escaped (literals image ps) := by
  induction reads generalizing before with
  | done => exact .done
  | mark apart later ih => exact .mark apart (ih spaced.tail numbers quiet.tail)
  | @word escaped w rest run closed plain later ih =>
    have numbers' : Numbers image rest := fun v member => numbers v (mem_values_later member)
    have again := ih spaced.tail numbers' quiet.tail
    have closed' := (closesWord_literals later numbers').trans closed
    rcases Part.ofWord_or_gap escaped w with ⟨k, same⟩ | same
    · rw [same] at numbers ⊢
      exact reads_number (numbers w (by simp [values])) closed' again
    · have silent := quiet [] w rest (by rw [same]; rfl) run closed
      rw [← text_literals] at silent
      have own : Reads escaped (Part.ofWord escaped w :: literals image rest) :=
        .word run closed' silent again
      rw [same] at own ⊢
      exact own
  | @call escaped w u rest word plain isCall later ih =>
    have empty := Reads.lead_empty word spaced
    subst empty
    have numbers' : Numbers image rest := fun v member => numbers v (by simp [values, member])
    have closed' := (closesWord_literals later numbers').trans (spaced [] u rest rfl).2
    exact reads_number (numbers u (by simp [values])) closed'
      (ih (Spaced.tail spaced) numbers' quiet.tail)

theorem not_callAhead (reads : Reads escaped ps) (free : ∀ u, Part.operand .function u ∉ ps)
    {x y : Text} (same : text ps = x ++ y) : ¬ CallAhead y := by
  induction reads generalizing x with
  | done =>
    rintro ⟨u, r, split, isCall⟩
    obtain ⟨c, rest, rfl, _⟩ := isWord_head_of_isCall isCall
    rw [split] at same
    simp at same
  | @mark escaped c rest apart later ih =>
    have free' : ∀ u, Part.operand .function u ∉ rest := fun u member => free u (by simp [member])
    cases x with
    | nil =>
      rw [List.nil_append] at same
      rw [← same]
      exact not_callAhead_mark apart
    | cons d x => exact ih free' (List.tail_eq_of_cons_eq same)
  | @word escaped w rest run closed plain later ih =>
    have free' : ∀ u, Part.operand .function u ∉ rest := fun u member => free u (by simp [member])
    rw [text_cons, Part.text_ofWord] at same
    rcases List.append_eq_append_iff.1 same with ⟨x', _, back⟩ | ⟨v, front, back⟩
    · exact ih free' back
    · by_cases filled : v = []
      · rw [filled, List.nil_append] at back
        exact ih free' (x := []) back.symm
      · rw [back]
        exact plain x v front filled
  | @call escaped w u rest word plain isCall later ih =>
    have member : Part.operand .function u ∈ Part.lead w (.operand .function u :: rest) := by
      cases w <;> simp [Part.lead]
    exact absurd member (free u)

theorem callFree_text (reads : Reads false ps) :
    Expression.CallFree (text ps) ↔ ∀ u, Part.operand .function u ∉ ps := by
  unfold Expression.CallFree
  rw [reads.extract_text]
  constructor
  · intro free u member
    obtain ⟨as, bs, split⟩ := List.append_of_mem member
    exact free ⟨u, (text as).length, .function⟩ (mem_tokens.2 ⟨as, bs, split, by simp⟩) rfl
  · intro free o member kind
    obtain ⟨as, bs, split, _⟩ := mem_tokens.1 member
    exact free o.value (by rw [← kind]; simp [split])

theorem quiet_of_callFree (free : Expression.CallFree (numbered ns ps)) : Quiet ns.written ps := by
  intro as w bs same _ _ u v split _ ahead
  obtain ⟨rs, reads, whole⟩ := Reads.exists_of_text (numbered ns ps) false
  rw [← whole] at free
  have place : text rs = (text (rename ns.written as) ++ u) ++ (v ++ text (rename ns.written bs)) := by
    rw [whole, same]
    show text (rename ns.written _) = _
    simp [Part.rename, Part.text, split]
  exact not_callAhead reads ((callFree_text reads).1 free) place ahead

theorem gap_beside_operand {as bs cs ds : Reading} {w v : Text} {k : Kind}
    (same : as ++ .gap w :: bs = cs ++ .operand k v :: ds) :
    (text cs).length + v.length ≤ (text as).length ∨
      (text as).length + w.length ≤ (text cs).length := by
  rcases List.append_eq_append_iff.1 same with ⟨x, front, back⟩ | ⟨x, front, back⟩
  · right
    cases x with
    | nil => cases back
    | cons p x =>
      obtain ⟨own, _⟩ := List.cons.inj back
      simp only [front, ← own, text_append, text_cons, Part.text, List.length_append]
      omega
  · left
    cases x with
    | nil => cases back
    | cons p x =>
      obtain ⟨own, _⟩ := List.cons.inj back
      simp only [front, ← own, text_append, text_cons, Part.text, List.length_append]
      omega

theorem quiet_of_finished (reads : Reads false ps) (finished : Expression.Finished (text ps))
    (ns : Numbering) : Quiet ns.written ps := by
  intro as w bs same run closed u v split filled ahead
  have heads : HeadsKept ns.written ps :=
    reads.headsKept_of_runs fun v _ => isRun_of_number (isNumberWord_ofNat (ns.number v))
  have kept : HeadsKept ns.written bs := heads.mono fun x member => by
    simp [same, values_append, values, member]
  have closed' : closesWord (text (rename ns.written bs)) = true := by
    rw [closesWord_rename kept, closed]
  obtain ⟨n, inNames, rfl, body, opened, _⟩ :=
    (callAhead_run_iff (IsRun.tail (u := u) (split ▸ run) filled) closed').1 ahead
  obtain ⟨t, rest, whole, _, _⟩ := marked_rename kept rfl opened
  have place : (text as ++ u).length ∈ Text.occurrences (n.1 ++ ['(']) (text ps) := by
    refine Text.mem_occurrences.2 ⟨text as ++ u, t ++ text rest, ?_, rfl⟩
    simp [same, whole, split, Part.text]
  obtain ⟨o, member, _, meet⟩ := finished n inNames _ place
  rw [reads.extract_text] at member
  obtain ⟨cs, ds, other, index⟩ := mem_tokens.1 member
  have apart := gap_beside_operand (same.symm.trans other)
  simp only [Span.overlaps, Bool.and_eq_true, decide_eq_true_eq] at meet
  simp only [Span.stop, split, List.length_append] at apart meet
  omega

theorem canonicalPair_numbered (left : Separated ps) (right : Separated qs)
    (inside : ∀ v, v ∈ values ps ∨ v ∈ values qs → v ∈ ns) (quiet : Quiet ns.written ps)
    (quiet' : Quiet ns.written qs) :
    Expression.canonicalPair (numbered ns ps) (numbered ns qs) =
      Expression.canonicalPair (text ps) (text qs) := by
  have readsL := reads_literals left.reads left.spaced (numbers_written ns ps) quiet
  have readsR := reads_literals right.reads right.spaced (numbers_written ns qs) quiet'
  obtain ⟨starts, goals⟩ := numbered_of_aligned (aligned_literals ns.written ps)
    (aligned_literals ns.written qs) (Set.injOn_id _) (written_injOn ns inside)
  have forms := readsL.canonicalPair_text readsR
  rw [starts, goals, text_literals, text_literals] at forms
  rw [left.reads.canonicalPair_text right.reads]
  exact forms

theorem Separated.canonicalPair_again (left : Separated ps) (right : Separated qs)
    (quiet : Quiet (names ps qs).written ps) (quiet' : Quiet (names ps qs).written qs) :
    let forms := Expression.canonicalPair (text ps) (text qs)
    Expression.canonicalPair forms.1 forms.2 = forms := by
  intro forms
  have own : forms = (numbered (names ps qs) ps, numbered (names ps qs) qs) :=
    left.reads.canonicalPair_text right.reads
  rw [own]
  exact (canonicalPair_numbered left right (fun _ => mem_names.2) quiet quiet').trans own

theorem numbered_eq_text_iff (reads : Reads escaped ps) :
    numbered ns ps = text ps ↔ ∀ v ∈ values ps, ns.written v = v := by
  constructor
  · intro same
    change text (rename ns.written ps) = text ps at same
    have number : ∀ v, IsRun (ns.written v) := fun v => isRun_of_number (isNumberWord_ofNat _)
    induction reads with
    | done => simp [values]
    | mark apart later ih => exact ih (List.tail_eq_of_cons_eq same)
    | @word escaped w rest run closed plain later ih =>
      have closed' : closesWord (text (rename ns.written rest)) = true := by
        rw [closesWord_rename (later.headsKept_of_runs fun v _ => number v), closed]
      rcases Part.ofWord_or_gap escaped w with ⟨k, form⟩ | form
      · rw [form] at same ⊢
        obtain ⟨own, behind⟩ := run_unique (number w) closed' run closed same
        simpa [values, own] using ih behind
      · rw [form] at same ⊢
        exact ih (List.append_cancel_left same)
    | @call escaped w u rest word plain isCall later ih =>
      -- A call begins with a letter, its number with a digit.
      rw [rename_lead, text_lead, text_lead] at same
      have behind := List.append_cancel_left same
      obtain ⟨n, inNames, arguments, rfl, _⟩ := isCall
      obtain ⟨filled, letters⟩ := callNames_plain n inNames
      obtain ⟨c, name, spelled⟩ := List.exists_cons_of_ne_nil filled
      obtain ⟨some, digits⟩ := isNumberWord_iff.1
        (isNumberWord_ofNat (ns.number (n.1 ++ '(' :: (arguments ++ [')']))))
      obtain ⟨d, more, counted⟩ := List.exists_cons_of_ne_nil some
      simp only [rename_cons, Part.rename, text_cons, Part.text, Numbering.written] at behind
      rw [counted, spelled] at behind
      have heads : d = c := (List.cons.inj behind).1
      have letter := letters c (by simp [spelled])
      have digit := digits d (by simp [counted])
      rw [heads, not_isDigit_of_isLetter letter] at digit
      cases digit
  · intro own
    have same : rename ns.written ps = rename id ps := rename_congr own
    rw [rename_id] at same
    exact congrArg text same

end Reading

namespace Expression

open Reading

variable {left right : Text}

theorem canonicalPair_eq_self_iff :
    canonicalPair left right = (left, right) ↔ OwnNumbers left right := by
  obtain ⟨ps, readsL, rfl⟩ := Reads.exists_of_text left false
  obtain ⟨qs, readsR, rfl⟩ := Reads.exists_of_text right false
  rw [readsL.canonicalPair_text readsR, Prod.mk.injEq, numbered_eq_text_iff readsL,
    numbered_eq_text_iff readsR]
  unfold OwnNumbers
  rw [operands_text readsL, operands_text readsR, numbering_text readsL readsR]
  constructor
  · rintro ⟨ownL, ownR⟩ v (inL | inR)
    · exact ownL v inL
    · exact ownR v inR
  · intro own
    exact ⟨fun v member => own v (.inl member), fun v member => own v (.inr member)⟩

theorem callFree_of_numbers {e : Text} (numbers : ∀ v ∈ operands e, isNumberWord v = true) :
    CallFree e := by
  obtain ⟨ps, reads, rfl⟩ := Reads.exists_of_text e false
  rw [operands_text reads] at numbers
  refine (callFree_text reads).2 fun u member => ?_
  rcases reads.operand_cases member with ⟨_, isCall⟩ | ⟨kind, _⟩ | ⟨kind, _⟩
  · have number := numbers u (mem_values.2 ⟨_, member⟩)
    rw [not_number_of_call isCall] at number
    cases number
  · cases kind
  · cases kind

theorem OwnNumbers.callFree (own : OwnNumbers left right) : CallFree left ∧ CallFree right := by
  have numbers : ∀ v, v ∈ operands left ∨ v ∈ operands right → isNumberWord v = true := by
    intro v member
    rw [← own v member]
    exact isNumberWord_ofNat _
  exact ⟨callFree_of_numbers fun v member => numbers v (.inl member),
    callFree_of_numbers fun v member => numbers v (.inr member)⟩

theorem canonicalPair_again_iff (unglued : Unglued left) (unglued' : Unglued right) :
    canonicalPair (canonicalPair left right).1 (canonicalPair left right).2 =
        canonicalPair left right ↔
      CallFree (canonicalPair left right).1 ∧ CallFree (canonicalPair left right).2 := by
  constructor
  · exact fun again => (canonicalPair_eq_self_iff.1 again).callFree
  · rintro ⟨free, free'⟩
    obtain ⟨ps, sepL, rfl⟩ := exists_separated unglued
    obtain ⟨qs, sepR, rfl⟩ := exists_separated unglued'
    rw [sepL.reads.canonicalPair_text sepR.reads] at free free'
    exact sepL.canonicalPair_again sepR (quiet_of_callFree free) (quiet_of_callFree free')

theorem canonicalPair_again_of_tidy (tidy : Tidy left) (tidy' : Tidy right) :
    canonicalPair (canonicalPair left right).1 (canonicalPair left right).2 =
      canonicalPair left right := by
  obtain ⟨ps, sepL, rfl⟩ := exists_separated tidy.unglued
  obtain ⟨qs, sepR, rfl⟩ := exists_separated tidy'.unglued
  exact sepL.canonicalPair_again sepR (quiet_of_finished sepL.reads tidy.finished _)
    (quiet_of_finished sepR.reads tidy'.finished _)

theorem canonicalPair_nil (e : Text) : canonicalPair e [] = ((normalize e).integer, []) := by
  have bare : Operand.extract [] = [] := by decide_cbv
  simp only [canonicalPair, normalizePair, bare]
  rfl

-- A form is its own form exactly when its operands are their own numbers. Where no call
-- touched a word this means that no call is read in it, and there is none when every name
-- before a parenthesis was the name of a call.
theorem forms_again (e left right : Text) :
    let form := (normalize e).integer
    let forms := canonicalPair left right
    (((normalize form).integer = form ↔ OwnNumbers form []) ∧
      (Unglued e → ((normalize form).integer = form ↔ CallFree form)) ∧
      (Tidy e → (normalize form).integer = form)) ∧
    (canonicalPair forms.1 forms.2 = forms ↔ OwnNumbers forms.1 forms.2) ∧
      (Unglued left → Unglued right →
        (canonicalPair forms.1 forms.2 = forms ↔ CallFree forms.1 ∧ CallFree forms.2)) ∧
      (Tidy left → Tidy right → canonicalPair forms.1 forms.2 = forms) := by
  intro form forms
  have bare : Tidy [] := tidy_of_plain List.not_mem_nil
  have free : CallFree [] := (callFree_text .done).2 (by simp)
  have single : canonicalPair e [] = (form, []) := canonicalPair_nil e
  have again : (normalize form).integer = form ↔ canonicalPair form [] = (form, []) := by
    rw [canonicalPair_nil, Prod.mk.injEq, and_iff_left rfl]
  refine ⟨⟨again.trans canonicalPair_eq_self_iff, ?_, ?_⟩, canonicalPair_eq_self_iff, ?_, ?_⟩
  · intro unglued
    have both := canonicalPair_again_iff unglued bare.unglued
    rw [single] at both
    rw [again, both]
    exact and_iff_left free
  · intro tidy
    have both := canonicalPair_again_of_tidy tidy bare
    rw [single] at both
    exact again.2 both
  · exact canonicalPair_again_iff
  · exact canonicalPair_again_of_tidy

-- The name is no call while a call stands in its parentheses, and becomes one when this
-- call is a number.
theorem not_forms_again :
    let e := "Ins(R(a,b);c)".toList
    (normalize e).integer = "Ins(1;2)".toList ∧
      (normalize (normalize e).integer).integer ≠ (normalize e).integer ∧
      canonicalPair (canonicalPair e []).1 (canonicalPair e []).2 ≠ canonicalPair e [] := by
  decide_cbv

theorem forms_again_clause :
    let e := ", R(i) \\Ps j, R(i)".toList
    (normalize (normalize e).integer).integer = (normalize e).integer ∧
      canonicalPair (canonicalPair e e).1 (canonicalPair e e).2 = canonicalPair e e := by
  intro e
  have tidy : Tidy ", R(i) \\Ps j, R(i)".toList := tidy_of_isTidy (by decide_cbv)
  obtain ⟨⟨_, _, single⟩, _, _, pair⟩ := forms_again e e e
  exact ⟨single tidy, pair tidy tidy⟩

end Expression
end OperatorCalculus
