import OperatorCalculus.Proofs.Expression.Extraction
import OperatorCalculus.Proofs.Expression.Renaming

-- Extraction as one scan from the left. A call is found where one of the names stands before
-- its arguments, and is passed as a whole; the other operands are the words that no call
-- touches. Of the tests that the patterns make, two never decide anything, and what the
-- cover drops lies inside a call that it keeps.
namespace OperatorCalculus

open Scan Text

namespace Operand

def freeNames : List Text := [['R'], ['R', 'c'], ['C', 'p', 'o'], ['D', 'e', 'l'], ['i', 'f']]

def splitNames : List Text :=
  [['R', 'c', 'p', 'o'], ['R', 'c', 'p', 'm'], ['I', 's', 'C', 'p', 'o']]

-- The arguments end at the first closing parenthesis. An insertion has its semicolon before
-- any comma.
inductive Spells : Text → Prop where
  | free {name arguments : Text} (named : name ∈ freeNames) (closed : ')' ∉ arguments) :
    Spells (name ++ '(' :: (arguments ++ [')']))
  | split {name arguments : Text} (named : name ∈ splitNames) (closed : ')' ∉ arguments)
    (halves : ';' ∈ arguments) : Spells (name ++ '(' :: (arguments ++ [')']))
  | insertion {first second : Text} (closed : ')' ∉ first ++ ';' :: second) (plain : ',' ∉ first) :
    Spells (['I', 'n', 's'] ++ '(' :: (first ++ ';' :: second ++ [')']))

inductive Calls : Nat → Text → List Token → Prop where
  | done {i : Nat} : Calls i [] []
  | found {i : Nat} {u rest : Text} {later : List Token} (call : Spells u)
    (more : Calls (i + u.length) rest later) : Calls i (u ++ rest) (⟨u, i, .function⟩ :: later)
  | passed {i : Nat} {c : Char} {rest : Text} {later : List Token}
    (none : ∀ u r, c :: rest = u ++ r → ¬ Spells u) (more : Calls (i + 1) rest later) :
    Calls i (c :: rest) later

-- What a word is. A letter right behind a backslash is nothing.
inductive Classifies : Bool → Text → Kind → Prop where
  | subscripted {escaped : Bool} {c : Char} {stem digits : Text} (lower : isLower c = true)
    (stems : ∀ d ∈ stem, isLower d = true ∨ isDigit d = true) (filled : digits ≠ [])
    (all : ∀ d ∈ digits, isDigit d = true) :
    Classifies escaped (c :: (stem ++ '_' :: digits)) .variable
  | letter {c : Char} (lower : isLower c = true) : Classifies false [c] .variable
  | number {escaped : Bool} {w : Text} (filled : w ≠ []) (all : ∀ d ∈ w, isDigit d = true) :
    Classifies escaped w .literal

-- The operands: the calls, and the maximal runs of word characters that overlap no call
-- and are words of one of the forms.
inductive Listed (e : Text) (calls : List Token) : Token → Prop where
  | call {t : Token} (found : t ∈ calls) : Listed e calls t
  | word {before w after : Text} {kind : Kind} (place : e = before ++ (w ++ after))
    (alone : Alone none before w after)
    (apart : ∀ c ∈ calls, Span.overlaps ⟨w, before.length, kind⟩ c = false)
    (form : Classifies (behind none before == some '\\') w kind) :
    Listed e calls ⟨w, before.length, kind⟩

theorem callNames_divided : ∀ n ∈ callNames,
    (n.2 = .free → n.1 ∈ freeNames) ∧ (n.2 = .split → n.1 ∈ splitNames) ∧
      (n.2 = .splitBeforeComma → n.1 = ['I', 'n', 's']) := by
  decide

theorem freeNames_called : ∀ name ∈ freeNames, (name, .free) ∈ callNames := by decide

theorem splitNames_called : ∀ name ∈ splitNames, (name, .split) ∈ callNames := by decide

theorem spells_of_isCall {u : Text} (isCall : IsCall u) : Spells u := by
  obtain ⟨⟨name, shape⟩, member, arguments, rfl, closed, admitted⟩ := isCall
  cases shape with
  | free => exact .free ((callNames_divided _ member).1 rfl) closed
  | split =>
    have halves : ';' ∈ arguments := by simpa [ArgumentShape.admits] using admitted
    exact .split ((callNames_divided _ member).2.1 rfl) closed halves
  | splitBeforeComma =>
    have named : name = ['I', 'n', 's'] := (callNames_divided _ member).2.2 rfl
    have inside : ';' ∈ arguments.takeWhile (· != ',') := by
      simpa [ArgumentShape.admits] using admitted
    obtain ⟨first, second, front⟩ := List.append_of_mem inside
    have whole := List.takeWhile_append_dropWhile (p := (· != ',')) (l := arguments)
    rw [front, List.append_assoc, List.cons_append] at whole
    have plain : ',' ∉ first := by
      intro comma
      have kept := List.all_eq_true.1 (List.all_takeWhile (p := (· != ',')) (l := arguments)) ','
        (by rw [front]; simp [comma])
      simp at kept
    subst named
    rw [← whole] at closed ⊢
    exact .insertion closed plain

theorem isCall_of_spells {u : Text} (spells : Spells u) : IsCall u := by
  cases spells with
  | @free name arguments named closed =>
    exact ⟨(name, .free), freeNames_called name named, arguments, rfl, closed, rfl⟩
  | @split name arguments named closed halves =>
    exact ⟨(name, .split), splitNames_called name named, arguments, rfl, closed,
      by simpa [ArgumentShape.admits] using halves⟩
  | @insertion first second closed plain =>
    refine ⟨(['I', 'n', 's'], .splitBeforeComma), by simp [callNames], _, rfl, closed, ?_⟩
    have before : ∀ c ∈ first, (c != ',') = true := by
      intro c member
      simpa using fun comma : c = ',' => plain (comma ▸ member)
    simp [ArgumentShape.admits, List.takeWhile_append_of_pos before]

theorem spells_unique {u r v s : Text} (first : Spells u) (second : Spells v)
    (same : u ++ r = v ++ s) : u = v ∧ r = s := by
  have hit : call none (u ++ r) = some u.length :=
    call_eq_some_iff.2 ⟨u, r, rfl, isCall_of_spells first, rfl⟩
  have hit' : call none (u ++ r) = some v.length :=
    call_eq_some_iff.2 ⟨v, s, same, isCall_of_spells second, rfl⟩
  exact List.append_inj same (Option.some.inj (hit.symm.trans hit'))

theorem Calls.unique {i : Nat} {t : Text} {cs ds : List Token} (first : Calls i t cs)
    (second : Calls i t ds) : cs = ds := by
  induction first generalizing ds with
  | done =>
    generalize whole : ([] : Text) = t at second
    cases second with
    | done => rfl
    | found call more =>
      obtain ⟨d, rest, rfl, _⟩ := isWord_head_of_isCall (isCall_of_spells call)
      cases whole
    | passed none more => cases whole
  | @found i u rest later call more ih =>
    generalize whole : u ++ rest = t at second
    cases second with
    | done =>
      obtain ⟨d, tail, rfl, _⟩ := isWord_head_of_isCall (isCall_of_spells call)
      cases whole
    | found call' more' =>
      obtain ⟨rfl, rfl⟩ := spells_unique call call' whole
      rw [ih more']
    | passed none more' => exact absurd call (none _ _ whole.symm)
  | @passed i c rest later none more ih =>
    generalize whole : c :: rest = t at second
    cases second with
    | done => cases whole
    | found call' more' => exact absurd call' (none _ _ whole)
    | passed none' more' =>
      cases whole
      exact ih more'

theorem calls_run (before : Option Char) (i : Nat) (t : Text) :
    Calls i t ((Scan.run call before i 0 t).map fun hit => ⟨hit.2, hit.1, .function⟩) := by
  induction size : t.length using Nat.strongRecOn generalizing t before i with
  | ind n ih =>
    cases t with
    | nil => exact .done
    | cons c rest =>
      cases found : call before (c :: rest) with
      | none =>
        have absent := call_eq_none_iff.1 found
        rw [run_of_none i found]
        refine .passed (fun u r same call => ?_) (ih rest.length (by simp [← size]) _ _ rest rfl)
        exact absent ⟨u, r, same, isCall_of_spells call⟩
      | some length =>
        obtain ⟨u, r, same, isCall, rfl⟩ := call_eq_some_iff.1 found
        obtain ⟨d, tail, rfl, _⟩ := isWord_head_of_isCall isCall
        rw [same] at found size ⊢
        rw [run_of_match i (by simp) found]
        simp only [List.length_append, List.length_cons] at size
        exact .found (spells_of_isCall isCall) (ih r.length (by omega) _ _ r rfl)

theorem classifies_iff {escaped : Bool} {w : Text} {k : Kind} :
    Classifies escaped w k ↔ Part.ofWord escaped w = .operand k w := by
  constructor
  · intro form
    cases form with
    | subscripted lower stems filled all =>
      refine Part.ofWord_subscripted _ (isSubscriptedWord_iff.2 ⟨_, _, _, rfl, lower, ?_, filled, all⟩)
      exact fun d member => by simpa [isStem] using stems d member
    | letter lower => exact Part.ofWord_letter (isLetterWord_iff.2 ⟨_, rfl, lower⟩)
    | number filled all => exact Part.ofWord_number _ (isNumberWord_iff.2 ⟨filled, all⟩)
  · intro form
    rcases Part.ofWord_cases escaped w with ⟨same, subscripted | ⟨letter, rfl⟩⟩ | ⟨same, number⟩ |
      ⟨same, _⟩
    · rw [same] at form
      cases form
      obtain ⟨c, stem, digits, rfl, lower, stems, filled, all⟩ := isSubscriptedWord_iff.1 subscripted
      exact .subscripted lower (fun d member => by simpa [isStem] using stems d member) filled all
    · rw [same] at form
      cases form
      obtain ⟨c, rfl, lower⟩ := isLetterWord_iff.1 letter
      exact .letter lower
    · rw [same] at form
      cases form
      obtain ⟨filled, all⟩ := isNumberWord_iff.1 number
      exact .number filled all
    · rw [same] at form
      cases form

-- The candidates without the two tests: only a backslash right before a letter counts.
def untested (e : Text) : List (Candidate Kind) :=
  propose 0 .function (Scan.all call e) ++
  propose 1 .variable (Scan.all subscripted e) ++
  propose 2 .variable ((Scan.all letter e).filter fun hit => charBefore? e hit.1 != some '\\') ++
  propose 3 .literal (Scan.all number e)

theorem candidates_untested (e : Text) : candidates e = untested e := by
  have letters : (Scan.all letter e).filter (fun hit => !belongsToEscape e hit.1) =
      (Scan.all letter e).filter fun hit => charBefore? e hit.1 != some '\\' := by
    apply List.filter_congr
    intro hit member
    obtain ⟨i, v⟩ := hit
    rw [letter_eq, Reads.mem_all_wordMatcher rfl] at member
    obtain ⟨x, y, rfl, rfl, form, alone⟩ := member
    obtain ⟨c, rfl, _⟩ := isLetterWord_iff.1 form
    rw [charBefore?_append, List.singleton_append, belongsToEscape_append alone.opens]
    rfl
  have numbers : (Scan.all number e).filter (fun hit => !belongsToSubscript e hit.1) =
      Scan.all number e := by
    apply List.filter_eq_self.2
    intro hit member
    obtain ⟨i, v⟩ := hit
    rw [number_eq, Reads.mem_all_wordMatcher rfl] at member
    obtain ⟨x, y, rfl, rfl, _, alone⟩ := member
    rw [belongsToSubscript_append alone.opens]
    rfl
  rw [candidates, untested, letters, numbers]

theorem run_increasing (m : Matcher) (before : Option Char) (position skip : Nat) (t : Text) :
    (Scan.run m before position skip t).Pairwise fun a b => a.1 < b.1 := by
  induction t generalizing before position skip with
  | nil => exact List.Pairwise.nil
  | cons c rest ih =>
    unfold Scan.run
    split
    · apply ih
    · split
      · refine List.Pairwise.cons ?_ (ih ..)
        intro later member
        exact Scan.position_le rest member
      · apply ih

theorem propose_nodup {hits : List (Nat × Text)} (priority : Int) (kind : Kind)
    (increasing : hits.Pairwise fun a b => a.1 < b.1) :
    ((propose priority kind hits).map Candidate.span).Nodup := by
  unfold propose List.Nodup
  rw [List.map_map, List.pairwise_map]
  refine increasing.imp ?_
  intro a b before same
  have places : a.1 = b.1 := congrArg Span.index same
  omega

theorem span_propose {priority : Int} {kind : Kind} {hits : List (Nat × Text)} {s : Token} :
    s ∈ (propose priority kind hits).map Candidate.span ↔ (s.index, s.value) ∈ hits ∧ s.kind = kind := by
  unfold propose
  rw [List.map_map, List.mem_map]
  constructor
  · intro found
    obtain ⟨hit, member, rfl⟩ := found
    exact ⟨member, rfl⟩
  · intro found
    obtain ⟨member, rfl⟩ := found
    exact ⟨_, member, rfl⟩

theorem propose_apart {first second : Int} {kind other : Kind} {hits more : List (Nat × Text)}
    (different : kind ≠ other) : ∀ s ∈ (propose first kind hits).map Candidate.span,
      ∀ t ∈ (propose second other more).map Candidate.span, s ≠ t := by
  intro s inFirst t inSecond same
  apply different
  rw [← (span_propose.1 inFirst).2, ← (span_propose.1 inSecond).2, same]

theorem not_subscripted_of_letter {w : Text} (letter : isLetterWord w = true) :
    isSubscriptedWord w = false := by
  obtain ⟨c, rfl, _⟩ := isLetterWord_iff.1 letter
  simp [isSubscriptedWord]

theorem candidates_nodup (e : Text) : ((candidates e).map Candidate.span).Nodup := by
  have increasing := fun m => run_increasing m none 0 0 e
  have words : ∀ s ∈ (propose 1 .variable (Scan.all subscripted e)).map Candidate.span,
      ∀ t ∈ (propose 2 .variable ((Scan.all letter e).filter fun hit =>
        !belongsToEscape e hit.1)).map Candidate.span, s ≠ t := by
    intro s first t second same
    have one := (span_propose.1 first).1
    have two := (List.mem_filter.1 (span_propose.1 second).1).1
    rw [subscripted_eq, Reads.mem_all_wordMatcher rfl] at one
    rw [letter_eq, Reads.mem_all_wordMatcher rfl, ← same] at two
    obtain ⟨_, _, _, _, isSubscripted, _⟩ := one
    obtain ⟨_, _, _, _, isLetter', _⟩ := two
    rw [not_subscripted_of_letter isLetter'] at isSubscripted
    cases isSubscripted
  unfold candidates
  simp only [List.map_append, List.nodup_append]
  refine ⟨⟨⟨propose_nodup _ _ (increasing _), propose_nodup _ _ (increasing _),
    propose_apart (by decide)⟩, propose_nodup _ _ ((increasing _).filter _), ?_⟩,
    propose_nodup _ _ ((increasing _).filter _), ?_⟩
  · intro s earlier
    cases List.mem_append.1 earlier with
    | inl asCall => exact propose_apart (by decide) s asCall
    | inr asSubscripted => exact words s asSubscripted
  · intro s earlier
    rcases List.mem_append.1 earlier with earlier | asLetter
    · cases List.mem_append.1 earlier with
      | inl asCall => exact propose_apart (by decide) s asCall
      | inr asSubscripted => exact propose_apart (by decide) s asSubscripted
    · exact propose_apart (by decide) s asLetter

theorem noCallIn_operand {escaped : Bool} {w r : Text} {k : Kind}
    (form : Part.ofWord escaped w = .operand k w) (closed : closesWord r = true) : NoCallIn w r := by
  rcases Part.ofWord_cases escaped w with ⟨_, words⟩ | ⟨_, number⟩ | ⟨same, _⟩
  · apply noCallIn_variable _ closed
    unfold isVariable
    rcases words with subscripted | ⟨letter, _⟩
    · rw [subscripted, Bool.or_true]
    · rw [letter, Bool.true_or]
  · intro u v same filled ahead
    have run : IsRun v := IsRun.tail (u := u) (same ▸ isRun_of_number number) filled
    obtain ⟨n, member, rfl, _⟩ := (callAhead_run_iff run closed).1 ahead
    obtain ⟨c, inside⟩ := List.exists_mem_of_ne_nil _ filled
    have digit := (isNumberWord_iff.1 number).2 c (by rw [same]; exact List.mem_append_right u inside)
    rw [not_isDigit_of_isLetter ((callNames_plain n member).2 c inside)] at digit
    cases digit
  · rw [same] at form
    cases form

theorem word_within_call {escaped : Bool} {k : Kind} {x v y a u b : Text} (alone : Alone none x v y)
    (form : Part.ofWord escaped v = .operand k v) (isCall : IsCall u)
    (same : x ++ (v ++ y) = a ++ (u ++ b)) (first : x.length < a.length + u.length)
    (second : a.length < x.length + v.length) :
    a.length ≤ x.length ∧ x.length + v.length ≤ a.length + u.length := by
  -- A word that begins before the name of the call would end in it, and a word that goes
  -- on behind the call would hold its closing parenthesis.
  have begins : a.length ≤ x.length := by
    apply Nat.le_of_not_lt
    intro earlier
    obtain ⟨z, rfl, rest⟩ := Reads.cut_behind same (Nat.le_of_lt earlier)
    rw [List.length_append] at earlier second
    obtain ⟨v', rfl, ahead⟩ := Reads.cut_behind rest.symm (by omega)
    rw [List.length_append] at second
    have filled : v' ≠ [] := List.ne_nil_of_length_pos (by omega)
    exact noCallIn_operand form alone.closes z v' rfl filled ⟨u, b, ahead.symm, isCall⟩
  refine ⟨begins, Nat.le_of_not_lt ?_⟩
  intro beyond
  obtain ⟨z, rfl, rest⟩ := Reads.cut_behind same.symm begins
  rw [List.length_append] at first beyond
  obtain ⟨w, rfl, tail⟩ := Reads.cut_behind rest.symm (by omega)
  rw [List.length_append] at first beyond
  obtain ⟨v', rfl, _⟩ := Reads.cut_behind tail.symm (by omega)
  have closing := closing_of_isCall isCall rfl (List.ne_nil_of_length_pos (by omega))
  have word := alone.run.2 ')' (List.mem_append_left _ closing)
  cases word

end Operand

namespace Reads

open Reading Operand

variable {ps : Reading}

theorem calls_tokens (reads : Reads false ps) :
    Calls 0 (text ps) ((tokens 0 ps).filter (·.kind == .function)) := by
  have calls := calls_run none 0 (text ps)
  rw [reads.run_call none 0, List.map_map] at calls
  have same : ((tokens 0 ps).filter (·.kind == .function)).map
      ((fun hit => ⟨hit.2, hit.1, .function⟩) ∘ fun t : Token => (t.index, t.value)) =
      (tokens 0 ps).filter (·.kind == .function) := by
    apply (List.map_congr_left _).trans (List.map_id _)
    intro t member
    have kind := eq_of_beq (List.mem_filter.1 member).2
    cases t
    subst kind
    rfl
  rwa [same] at calls

theorem mem_tokens_iff_listed (reads : Reads false ps) {t : Token} :
    t ∈ tokens 0 ps ↔ Listed (text ps) ((tokens 0 ps).filter (·.kind == .function)) t := by
  constructor
  · intro member
    by_cases kind : t.kind = .function
    · exact .call (List.mem_filter.2 ⟨member, by rw [kind]; rfl⟩)
    · obtain ⟨as, bs, split, place⟩ := mem_tokens.1 member
      obtain ⟨alone, form⟩ := @word_stands _ _ _ _ none _ _ reads rfl (.inl rfl) split kind
      obtain ⟨v, i, k⟩ := t
      simp only [Nat.zero_add] at place
      subst place
      have whole : text ps = text as ++ (v ++ text bs) := by simp [split, Part.text]
      refine .word whole alone ?_ (classifies_iff.2 form)
      intro c found
      obtain ⟨inTokens, other⟩ := List.mem_filter.1 found
      cases meet : Span.overlaps (⟨v, (text as).length, k⟩ : Token) c with
      | false => rfl
      | true =>
        rw [← Cover.eq_of_overlaps (tokens_ordered 0 ps) member inTokens meet] at other
        exact absurd (eq_of_beq other) kind
  · intro listed
    cases listed with
    | call found => exact (List.mem_filter.1 found).1
    | @word before w after kind place alone apart form =>
      have operand := classifies_iff.1 form
      rcases reads.run_read rfl place alone with ⟨as, bs, split, front⟩ | ⟨as, u, bs, split, first, second⟩
      · rw [operand] at split
        exact mem_tokens.2 ⟨as, bs, split, by simp [front]⟩
      · have own : (⟨u, (text as).length, .function⟩ : Token) ∈ tokens 0 ps :=
          mem_tokens.2 ⟨as, bs, split, by simp⟩
        have none := apart _ (List.mem_filter.2 ⟨own, rfl⟩)
        simp only [Span.overlaps, Span.stop, first, second, decide_true, Bool.and_self] at none
        cases none

theorem dropped_within_call (reads : Reads false ps) {c : Candidate Kind}
    (member : c ∈ candidates (text ps)) (dropped : c.span ∉ tokens 0 ps) :
    ∃ k ∈ (tokens 0 ps).filter (·.kind == .function),
      k.index ≤ c.span.index ∧ c.span.stop ≤ k.stop := by
  rcases Reads.candidate_cases member with ⟨i, u, hit, rfl⟩ | ⟨_, x, v, y, kind, same, alone, form, span⟩
  · exact absurd (reads.function_hit_iff.1 hit) dropped
  · rw [span] at dropped ⊢
    rcases reads.run_read rfl same alone with ⟨as, bs, split, front⟩ | ⟨as, u, bs, split, first, second⟩
    · rw [form] at split
      exact absurd (mem_tokens.2 ⟨as, bs, split, by simp [front]⟩) dropped
    · have own : (⟨u, (text as).length, .function⟩ : Token) ∈ tokens 0 ps :=
        mem_tokens.2 ⟨as, bs, split, by simp⟩
      refine ⟨_, List.mem_filter.2 ⟨own, rfl⟩, ?_⟩
      rcases reads.operand_cases (k := .function) (v := u) (by simp [split]) with
        ⟨_, isCall⟩ | ⟨other, _⟩ | ⟨other, _⟩
      · have whole : text ps = text as ++ (u ++ text bs) := by simp [split, Part.text]
        exact word_within_call alone form isCall (same.symm.trans whole) first second
      · cases other
      · cases other

theorem tokens_increasing (reads : Reads false ps) :
    (tokens 0 ps).Pairwise fun a b => a.index < b.index ∧ a.stop ≤ b.index := by
  refine (tokens_ordered 0 ps).imp_of_mem ?_
  intro a b inA _ before
  obtain ⟨as, bs, split, _⟩ := mem_tokens.1 inA
  obtain ⟨c, rest, same, _⟩ := reads.operand_head (k := a.kind) (v := a.value) (by simp [split])
  have := Cover.index_lt_stop (s := a) (by simp [same])
  omega

end Reads

namespace Operand

theorem extract_listed (e : Text) : ∃ calls, (∀ found, Calls 0 e found ↔ found = calls) ∧
    (∀ t, t ∈ extract e ↔ Listed e calls t) ∧
    ((extract e).Pairwise fun a b => a.index < b.index ∧ a.stop ≤ b.index) ∧
    candidates e = untested e ∧ ((candidates e).map Candidate.span).Nodup ∧
    ∀ c ∈ candidates e, c.span ∉ extract e →
      ∃ k ∈ calls, k ∈ extract e ∧ k.index ≤ c.span.index ∧ c.span.stop ≤ k.stop := by
  obtain ⟨ps, reads, rfl⟩ := Reads.exists_of_text e false
  rw [reads.extract_text]
  have calls := reads.calls_tokens
  refine ⟨_, ?_, fun t => reads.mem_tokens_iff_listed, reads.tokens_increasing,
    candidates_untested _, candidates_nodup _, ?_⟩
  · intro found
    constructor
    · intro others
      exact others.unique calls
    · rintro rfl
      exact calls
  · intro c member dropped
    obtain ⟨k, found, within⟩ := reads.dropped_within_call member dropped
    exact ⟨k, found, (List.mem_filter.1 found).1, within⟩

end Operand
end OperatorCalculus
