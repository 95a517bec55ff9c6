import OperatorCalculus.Proofs.Expression.Cover
import OperatorCalculus.Proofs.Expression.Reads

namespace OperatorCalculus

open Scan Text Operand

namespace Operand

theorem opensEscape_cases {t : Text} (opens : opensEscape t = true) :
    ∃ a l rest, t = '\\' :: a :: l :: rest ∧ isWord a = true ∧ isLower l = true := by
  unfold opensEscape at opens
  split at opens
  · exact ⟨'O', _, _, rfl, rfl, opens⟩
  · exact ⟨'B', _, _, rfl, rfl, opens⟩
  · cases opens

theorem not_holdsEscape {s : Text} {c : Char} (short : s.length ≤ 3)
    (opens : opensWord (behind none s) = true) : holdsEscape (s ++ [c]) = false := by
  have none : ∀ u v, s = u ++ v → opensEscape (v ++ [c]) = false := by
    intro u v same
    cases escape : opensEscape (v ++ [c]) with
    | false => rfl
    | true =>
      obtain ⟨a, l, rest, whole, word, lower⟩ := opensEscape_cases escape
      rw [same, behind_append] at opens
      rw [same, List.length_append] at short
      match v, whole with
      | [], whole => simp at whole
      | [_], whole => simp at whole
      | [x, y], whole =>
        simp only [List.cons_append, List.nil_append, List.cons.injEq] at whole
        rw [whole.2.1] at opens
        simp [behind, opensWord, word] at opens
      | [x, y, z], whole =>
        simp only [List.cons_append, List.nil_append, List.cons.injEq] at whole
        rw [whole.2.2.1] at opens
        simp [behind, opensWord, isWord_of_isLower lower] at opens
      | _ :: _ :: _ :: _ :: _, _ =>
        simp only [List.length_cons] at short
        omega
  clear opens short
  induction s with
  | nil => simp [holdsEscape, opensEscape]
  | cons d s ih =>
    have first := none [] (d :: s) rfl
    have later := ih fun u v same => none (d :: u) v (by simp [same])
    simp only [List.cons_append] at first ⊢
    simp only [holdsEscape, first, later, Bool.or_self]

theorem charBefore?_append (x y : Text) : charBefore? (x ++ y) x.length = behind none x := by
  rcases List.eq_nil_or_concat x with rfl | ⟨u, c, rfl⟩
  · rfl
  · rw [List.concat_eq_append, behind_concat]
    simp [charBefore?]

theorem opensWord_behind_drop {x : Text} (n : Nat) (opens : opensWord (behind none x) = true) :
    opensWord (behind none (x.drop n)) = true := by
  rcases List.eq_nil_or_concat (x.drop n) with none | ⟨u, c, some⟩
  · rw [none]
    rfl
  · rw [List.concat_eq_append] at some
    rw [some, behind_concat]
    have whole := List.take_append_drop n x
    rw [some, ← List.append_assoc] at whole
    rwa [← whole, behind_concat] at opens

theorem belongsToEscape_append {x y : Text} {c : Char}
    (opens : opensWord (behind none x) = true) :
    belongsToEscape (x ++ c :: y) x.length = (behind none x == some '\\') := by
  have window : ((x ++ c :: y).drop (x.length - 3)).take (x.length + 1 - (x.length - 3)) =
      x.drop (x.length - 3) ++ [c] := by
    have size : x.length + 1 - (x.length - 3) = (x.drop (x.length - 3)).length + 1 := by
      rw [List.length_drop]
      omega
    rw [List.drop_append_of_le_length (by omega), size, List.take_length_add_append]
    rfl
  have quiet : holdsEscape (x.drop (x.length - 3) ++ [c]) = false :=
    not_holdsEscape (by rw [List.length_drop]; omega) (opensWord_behind_drop _ opens)
  rw [belongsToEscape, window, quiet, charBefore?_append, Bool.or_false]

theorem belongsToSubscript_append {x y : Text} (opens : opensWord (behind none x) = true) :
    belongsToSubscript (x ++ y) x.length = false := by
  rw [belongsToSubscript, charBefore?_append]
  cases last : behind none x with
  | none => rfl
  | some c =>
    rw [last] at opens
    cases same : (some c == some '_') with
    | false => rfl
    | true =>
      rw [eq_of_beq same] at opens
      cases opens

theorem mem_propose {priority : Int} {kind : Kind} {hits : List (Nat × Text)}
    {c : Candidate Kind} : c ∈ propose priority kind hits ↔
      ∃ i v, (i, v) ∈ hits ∧ c = ⟨priority, ⟨v, i, kind⟩⟩ := by
  simp only [propose, List.mem_map, Prod.exists]
  constructor
  · intro found
    obtain ⟨i, v, hit, rfl⟩ := found
    exact ⟨i, v, hit, rfl⟩
  · intro found
    obtain ⟨i, v, hit, rfl⟩ := found
    exact ⟨i, v, hit, rfl⟩

end Operand

namespace Reads

open Reading

variable {escaped : Bool} {ps as bs : Reading} {before : Option Char} {k : Kind} {v x y : Text}

theorem lead_eq_append {w : Text} (same : Part.lead w ps = as ++ .operand k v :: bs) :
    ∃ inner, as = Part.lead w inner ∧ ps = inner ++ .operand k v :: bs := by
  cases w with
  | nil => exact ⟨as, rfl, same⟩
  | cons c w =>
    cases as with
    | nil => cases same
    | cons p as =>
      simp only [Part.lead, List.isEmpty_cons, Bool.false_eq_true, if_false, List.cons_append,
        List.cons.injEq] at same
      exact ⟨as, by rw [← same.1]; rfl, same.2⟩

theorem run_call (reads : Reads escaped ps) (before : Option Char) (position : Nat) :
    Scan.run Operand.call before position 0 (text ps) =
      ((tokens position ps).filter (·.kind == .function)).map fun t => (t.index, t.value) := by
  induction reads generalizing before position with
  | done => rfl
  | @mark escaped c rest apart later ih =>
    have none : Operand.call before (c :: text rest) = none :=
      call_eq_none_iff.2 (not_callAhead_mark apart)
    rw [text_cons, Part.text, List.singleton_append, run_of_none _ none, ih]
    rfl
  | @word escaped w rest run closed plain later ih =>
    have quiet : ∀ u c t, w = u ++ c :: t →
        Operand.call (behind before u) (c :: t ++ text rest) = none := by
      intro u c t same
      exact call_eq_none_iff.2 (plain u (c :: t) same (by simp))
    rw [text_cons, Part.text_ofWord, run_of_quiet _ w (text rest) quiet, ih]
    rcases Part.ofWord_cases escaped w with ⟨same, _⟩ | ⟨same, _⟩ | ⟨same, _⟩ <;>
      rw [same] <;> rfl
  | @call escaped w u rest word plain isCall later ih =>
    have quiet : ∀ a c t, w = a ++ c :: t →
        Operand.call (behind before a) (c :: t ++ (u ++ text rest)) = none := by
      intro a c t same
      exact call_eq_none_iff.2 (plain a (c :: t) same (by simp))
    obtain ⟨d, u', rfl, _⟩ := isWord_head_of_isCall isCall
    have hit : Operand.call (behind before w) (d :: u' ++ text rest) = some (d :: u').length :=
      call_eq_some_iff.2 ⟨d :: u', text rest, rfl, isCall, rfl⟩
    rw [text_lead, text_cons, Part.text, run_of_quiet _ w _ quiet,
      run_of_match _ (by simp) hit, ih]
    simp [tokens]

theorem not_slash_behind_run {w : Text} (run : IsRun w) (before : Option Char) :
    (behind before w == some '\\') = false := by
  obtain ⟨c, member, last⟩ := behind_mem run.1 before
  rw [last]
  cases slash : (some c == some '\\') with
  | false => rfl
  | true =>
    have word := run.2 c member
    rw [Option.some.inj (eq_of_beq slash)] at word
    cases word

theorem word_stands (reads : Reads escaped ps) (flag : escaped = (before == some '\\'))
    (edge : opensWord before = true ∨ closesWord (text ps) = true)
    (same : ps = as ++ .operand k v :: bs) (notCall : k ≠ .function) :
    Alone before (text as) v (text bs) ∧
      Part.ofWord (behind before (text as) == some '\\') v = .operand k v := by
  induction reads generalizing before as with
  | done => simp at same
  | @mark escaped c rest apart later ih =>
    cases as with
    | nil => cases same
    | cons p as =>
      simp only [List.cons_append, List.cons.injEq] at same
      obtain ⟨rfl, same⟩ := same
      have opens : opensWord (some c) = true := by simp [opensWord, apart]
      have flag' : (c == '\\') = (some c == some '\\') := rfl
      obtain ⟨alone, form⟩ := ih flag' (.inl opens) same
      exact ⟨⟨alone.run, alone.opens, alone.closes⟩, form⟩
  | @word escaped w rest run closed plain later ih =>
    cases as with
    | nil =>
      simp only [List.nil_append, List.cons.injEq] at same
      obtain ⟨own, rfl⟩ := same
      have value := congrArg Part.text own
      rw [Part.text_ofWord] at value
      subst value
      have opens : opensWord before = true := by
        cases edge with
        | inl opens => exact opens
        | inr closes =>
          rw [text_cons, Part.text_ofWord, not_closes_run run] at closes
          cases closes
      rw [flag] at own
      exact ⟨⟨run, opens, closed⟩, own⟩
    | cons p as =>
      simp only [List.cons_append, List.cons.injEq] at same
      obtain ⟨rfl, same⟩ := same
      have flag' := (not_slash_behind_run run before).symm
      obtain ⟨alone, form⟩ := ih flag' (.inr closed) same
      have passed : behind before (text (Part.ofWord escaped w :: as)) =
          behind (behind before w) (text as) := by
        rw [text_cons, Part.text_ofWord, behind_append]
      exact ⟨⟨alone.run, by rw [passed]; exact alone.opens, alone.closes⟩,
        by rw [passed]; exact form⟩
  | @call escaped w u rest word plain isCall later ih =>
    obtain ⟨inner, rfl, split⟩ := lead_eq_append same
    cases inner with
    | nil =>
      simp only [List.nil_append, List.cons.injEq, Part.operand.injEq] at split
      exact absurd split.1.1.symm notCall
    | cons p inner =>
      simp only [List.cons_append, List.cons.injEq] at split
      obtain ⟨rfl, split⟩ := split
      have last := behind_isCall isCall (behind before w)
      obtain ⟨alone, form⟩ := @ih inner (some ')') rfl (.inl rfl) split
      have passed : behind before (text (Part.lead w (.operand .function u :: inner))) =
          behind (some ')') (text inner) := by
        rw [text_lead, behind_append, text_cons, Part.text, behind_append, last]
      exact ⟨⟨alone.run, by rw [passed]; exact alone.opens, alone.closes⟩,
        by rw [passed]; exact form⟩

def Placed (ps : Reading) (escaped : Bool) (x v : Text) : Prop :=
  (∃ as bs, ps = as ++ Part.ofWord escaped v :: bs ∧ text as = x) ∨
  ∃ as u bs, ps = as ++ .operand .function u :: bs ∧
    x.length < (text as).length + u.length ∧ (text as).length < x.length + v.length

theorem Placed.prepend (placed : Placed ps escaped x v) (front : Reading) :
    Placed (front ++ ps) escaped (text front ++ x) v := by
  rcases placed with ⟨as, bs, split, whole⟩ | ⟨as, u, bs, split, first, second⟩
  · exact .inl ⟨front ++ as, bs, by rw [split, List.append_assoc], by rw [text_append, whole]⟩
  · refine .inr ⟨front ++ as, u, bs, by rw [split, List.append_assoc], ?_, ?_⟩ <;>
      simp only [text_append, List.length_append] <;> omega

theorem cut_behind {front rest longer back : Text} (same : front ++ rest = longer ++ back)
    (reaches : front.length ≤ longer.length) :
    ∃ between, longer = front ++ between ∧ rest = between ++ back := by
  obtain ⟨between, rfl⟩ := List.prefix_of_prefix_length_le (List.prefix_append front rest)
    (same ▸ List.prefix_append longer back) reaches
  rw [List.append_assoc] at same
  exact ⟨between, rfl, List.append_cancel_left same⟩

theorem reaches_call {w u r : Text} (word : ∀ c ∈ w, isWord c = true) (isCall : IsCall u)
    (same : w ++ (u ++ r) = x ++ v ++ y) (closes : closesWord y = true) :
    w.length < (x ++ v).length := by
  obtain ⟨d, u', rfl, isWord⟩ := isWord_head_of_isCall isCall
  cases Nat.lt_or_ge w.length (x ++ v).length with
  | inl reaches => exact reaches
  | inr short =>
    have open_ : ∃ e rest, y = e :: rest ∧ Text.isWord e = true := by
      obtain ⟨z, front, back⟩ := cut_behind same.symm short
      cases z with
      | nil => exact ⟨d, u' ++ r, back, isWord⟩
      | cons e z => exact ⟨e, z ++ (d :: u' ++ r), back, word e (by simp [front])⟩
    obtain ⟨e, rest, rfl, inside⟩ := open_
    simp [closesWord_cons, inside] at closes

theorem run_read (reads : Reads escaped ps) (flag : escaped = (before == some '\\'))
    (same : text ps = x ++ (v ++ y)) (alone : Alone before x v y) :
    Placed ps (behind before x == some '\\') x v := by
  obtain ⟨run, opens, closes⟩ := alone
  induction reads generalizing before x with
  | done => simp [run.1] at same
  | @mark escaped c rest apart later ih =>
    rw [text_cons, Part.text, List.singleton_append] at same
    cases x with
    | nil =>
      have closed := not_closes_run run y
      rw [List.nil_append] at same
      rw [← same] at closed
      simp [closesWord_cons, apart] at closed
    | cons d x =>
      simp only [List.cons_append, List.cons.injEq] at same
      obtain ⟨rfl, same⟩ := same
      exact (@ih (some c) x rfl same opens).prepend [.gap [c]]
  | @word escaped w rest own closed plain later ih =>
    rw [text_cons, Part.text_ofWord] at same
    cases x with
    | nil =>
      obtain ⟨rfl, rfl⟩ := run_unique own closed run closes same
      exact .inl ⟨[], rest, by rw [flag]; rfl, rfl⟩
    | cons d x =>
      obtain ⟨x', front, back⟩ := run_passed own same (by simp) opens
      rw [front, behind_append] at opens
      rw [front, behind_append]
      have placed := @ih (behind before w) x' (not_slash_behind_run own before).symm back opens
      have prepended := placed.prepend [Part.ofWord escaped w]
      rwa [text_cons, text_nil, Part.text_ofWord, List.append_nil] at prepended
  | @call escaped w u rest word plain isCall later ih =>
    have split : ∀ ps, Part.lead w (.operand .function u :: ps) =
        Part.lead w [.operand .function u] ++ ps := fun ps => by cases w <;> rfl
    have whole : text (Part.lead w [.operand .function u]) = w ++ u := by simp [Part.text]
    rw [text_lead, text_cons, Part.text] at same
    have reaches := reaches_call word isCall (same.trans (List.append_assoc ..).symm) closes
    rw [← List.append_assoc] at same
    cases Nat.lt_or_ge x.length (w ++ u).length with
    | inl inside =>
      have place : text (Part.lead w []) = w := by simp
      refine .inr ⟨Part.lead w [], u, rest, by cases w <;> rfl, ?_, ?_⟩
      · rwa [place, ← List.length_append]
      · rwa [place, ← List.length_append]
    | inr passed =>
      obtain ⟨x', rfl, back⟩ := cut_behind same passed
      have last : behind before (w ++ u ++ x') = behind (some ')') x' := by
        rw [behind_append, behind_append, behind_isCall isCall]
      rw [last] at opens ⊢
      have prepended := (@ih (some ')') x' rfl back opens).prepend
        (Part.lead w [.operand .function u])
      rwa [whole, ← split] at prepended

theorem function_hit_iff (reads : Reads false ps) {i : Nat} :
    (i, v) ∈ Scan.all Operand.call (text ps) ↔ ⟨v, i, .function⟩ ∈ tokens 0 ps := by
  rw [Scan.all, reads.run_call none 0, List.mem_map]
  constructor
  · intro found
    obtain ⟨t, member, same⟩ := found
    obtain ⟨member, kind⟩ := List.mem_filter.1 member
    obtain ⟨rfl, rfl⟩ := Prod.mk.inj same
    have whole : (⟨t.value, t.index, .function⟩ : Token) = t := by rw [← eq_of_beq kind]
    rwa [whole]
  · intro member
    exact ⟨_, List.mem_filter.2 ⟨member, rfl⟩, rfl⟩

theorem word_covered (reads : Reads false ps) {priority : Int} (positive : 0 < priority)
    (same : text ps = x ++ (v ++ y)) (alone : Alone none x v y)
    (form : Part.ofWord (behind none x == some '\\') v = .operand k v) :
    (⟨v, x.length, k⟩ : Token) ∈ tokens 0 ps ∨
      ∃ d ∈ candidates (text ps), d.span ∈ tokens 0 ps ∧ d.priority < priority ∧
        Span.overlaps (⟨v, x.length, k⟩ : Token) d.span = true := by
  rcases reads.run_read rfl same alone with ⟨as, bs, split, front⟩ | ⟨as, u, bs, split, first, second⟩
  · rw [form] at split
    exact .inl (mem_tokens.2 ⟨as, bs, split, by simp [front]⟩)
  · have own : (⟨u, (text as).length, .function⟩ : Token) ∈ tokens 0 ps :=
      mem_tokens.2 ⟨as, bs, split, by simp⟩
    refine .inr ⟨⟨0, ⟨u, (text as).length, .function⟩⟩, ?_, own, positive, ?_⟩
    · simp only [candidates, List.mem_append]
      exact .inl (.inl (.inl (mem_propose.2 ⟨_, _, reads.function_hit_iff.2 own, rfl⟩)))
    · rw [Span.overlaps, Bool.and_eq_true]
      exact ⟨decide_eq_true first, decide_eq_true second⟩

theorem mem_all_wordMatcher {good : Text → Bool} (empty : good [] = false) {i : Nat} (t : Text) :
    (i, v) ∈ Scan.all (wordMatcher good) t ↔
      ∃ x y, t = x ++ (v ++ y) ∧ i = x.length ∧ good v = true ∧ Alone none x v y := by
  rw [Scan.all, mem_run_wordMatcher empty]
  simp only [Nat.zero_add]

theorem token_proposed (reads : Reads false ps) {t : Token} (member : t ∈ tokens 0 ps) :
    ∃ c ∈ candidates (text ps), c.span = t := by
  obtain ⟨as, bs, split, place⟩ := mem_tokens.1 member
  obtain ⟨v, i, k⟩ := t
  simp only [Nat.zero_add] at split place
  subst place
  have inside : Part.operand k v ∈ ps := by simp [split]
  have whole : text ps = text as ++ (v ++ text bs) := by simp [split, Part.text]
  rcases reads.operand_cases inside with ⟨rfl, _⟩ | ⟨rfl, _⟩ | ⟨rfl, number⟩
  · refine ⟨⟨0, _⟩, ?_, rfl⟩
    simp only [candidates, List.mem_append]
    exact .inl (.inl (.inl (mem_propose.2 ⟨_, _, reads.function_hit_iff.2 member, rfl⟩)))
  · obtain ⟨alone, form⟩ := @word_stands _ _ _ _ none _ _ reads rfl (.inl rfl) split (by simp)
    rcases Part.ofWord_cases (behind none (text as) == some '\\') v with
      ⟨_, subscripted | ⟨letter, unescaped⟩⟩ | ⟨other, _⟩ | ⟨other, _⟩
    · refine ⟨⟨1, _⟩, ?_, rfl⟩
      simp only [candidates, List.mem_append]
      refine .inl (.inl (.inr (mem_propose.2 ⟨_, _, ?_, rfl⟩)))
      rw [subscripted_eq, mem_all_wordMatcher rfl]
      exact ⟨_, _, whole, rfl, subscripted, alone⟩
    · obtain ⟨c, rfl, _⟩ := isLetterWord_iff.1 letter
      refine ⟨⟨2, _⟩, ?_, rfl⟩
      simp only [candidates, List.mem_append]
      refine .inl (.inr (mem_propose.2 ⟨_, _, List.mem_filter.2 ⟨?_, ?_⟩, rfl⟩))
      · rw [letter_eq, mem_all_wordMatcher rfl]
        exact ⟨_, _, whole, rfl, letter, alone⟩
      · rw [whole, List.singleton_append, belongsToEscape_append alone.opens, unescaped]
        rfl
    · rw [other] at form
      cases form
    · rw [other] at form
      cases form
  · obtain ⟨alone, _⟩ := @word_stands _ _ _ _ none _ _ reads rfl (.inl rfl) split (by simp)
    refine ⟨⟨3, _⟩, ?_, rfl⟩
    simp only [candidates, List.mem_append]
    refine .inr (mem_propose.2 ⟨_, _, List.mem_filter.2 ⟨?_, ?_⟩, rfl⟩)
    · rw [number_eq, mem_all_wordMatcher rfl]
      exact ⟨_, _, whole, rfl, number, alone⟩
    · rw [whole, belongsToSubscript_append alone.opens]
      rfl

theorem candidate_cases {e : Text} {c : Candidate Kind} (member : c ∈ candidates e) :
    (∃ i u, (i, u) ∈ Scan.all Operand.call e ∧ c = ⟨0, ⟨u, i, .function⟩⟩) ∨
    0 < c.priority ∧ ∃ x v y k, e = x ++ (v ++ y) ∧ Alone none x v y ∧
      Part.ofWord (behind none x == some '\\') v = .operand k v ∧ c.span = ⟨v, x.length, k⟩ := by
  simp only [candidates, List.mem_append, mem_propose] at member
  rcases member with ((⟨i, v, hit, rfl⟩ | ⟨i, v, hit, rfl⟩) | ⟨i, v, hit, rfl⟩) | ⟨i, v, hit, rfl⟩
  · exact .inl ⟨i, v, hit, rfl⟩
  · rw [subscripted_eq, mem_all_wordMatcher rfl] at hit
    obtain ⟨x, y, same, rfl, form, alone⟩ := hit
    exact .inr ⟨Int.zero_lt_one, x, v, y, _, same, alone, Part.ofWord_subscripted _ form, rfl⟩
  · obtain ⟨hit, kept⟩ := List.mem_filter.1 hit
    rw [letter_eq, mem_all_wordMatcher rfl] at hit
    obtain ⟨x, y, same, rfl, form, alone⟩ := hit
    refine .inr ⟨show (0 : Int) < 2 by decide, x, v, y, .variable, same, alone, ?_, rfl⟩
    obtain ⟨c, rfl, _⟩ := isLetterWord_iff.1 form
    simp only [same, List.singleton_append, belongsToEscape_append alone.opens] at kept
    cases slash : (behind none x == some '\\') with
    | true =>
      rw [slash] at kept
      cases kept
    | false => exact Part.ofWord_letter form
  · obtain ⟨hit, _⟩ := List.mem_filter.1 hit
    rw [number_eq, mem_all_wordMatcher rfl] at hit
    obtain ⟨x, y, same, rfl, form, alone⟩ := hit
    exact .inr ⟨show (0 : Int) < 3 by decide, x, v, y, _, same, alone, Part.ofWord_number _ form, rfl⟩

theorem candidate_covered (reads : Reads false ps) {c : Candidate Kind}
    (member : c ∈ candidates (text ps)) : c.span ∈ tokens 0 ps ∨
      ∃ d ∈ candidates (text ps), d.span ∈ tokens 0 ps ∧ d.priority < c.priority ∧
        c.span.overlaps d.span = true := by
  rcases candidate_cases member with ⟨i, u, hit, rfl⟩ | ⟨positive, x, v, y, k, same, alone, form, span⟩
  · exact .inl (reads.function_hit_iff.1 hit)
  · rw [span]
    exact reads.word_covered positive same alone form

theorem extract_text (reads : Reads false ps) : Operand.extract (text ps) = tokens 0 ps := by
  refine Cover.ofCandidates_eq ⟨tokens_ordered 0 ps, ?_, ?_, ?_⟩
  · intro t member
    obtain ⟨as, bs, split, _⟩ := mem_tokens.1 member
    obtain ⟨c, rest, same, _⟩ := reads.operand_head (k := t.kind) (v := t.value) (by simp [split])
    simp [same]
  · intro t member
    exact reads.token_proposed member
  · intro c member
    exact reads.candidate_covered member

end Reads
end OperatorCalculus
