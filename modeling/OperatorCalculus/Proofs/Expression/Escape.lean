import OperatorCalculus.Proofs.Expression.Renaming
import OperatorCalculus.Proofs.Expression.Tokens

namespace OperatorCalculus

open Scan Text Operand

structure Escape (e before name after : Text) : Prop where
  whole : e = before ++ '\\' :: (name ++ after)
  named : name ≠ []
  letters : ∀ c ∈ name, isLetter c = true
  closed : ∀ c, after.head? = some c → isLetter c = false

namespace Escape

def lexeme (before name : Text) : Token :=
  ⟨'\\' :: name, before.length, Lexeme.kindOf ('\\' :: name)⟩

-- The arguments of a call follow, and the name of the escape ends in its name.
def CallEnters (name after : Text) : Prop :=
  ∃ n ∈ callNames, n.1 <:+ name ∧ ∃ arguments rest, after = '(' :: (arguments ++ ')' :: rest) ∧
    ')' ∉ arguments ∧ n.2.admits arguments = true

-- The run behind the backslash is a subscripted variable.
def SubscriptEnters (name after : Text) : Prop :=
  ∃ w rest, name ++ after = w ++ rest ∧ isSubscriptedWord w = true ∧ closesWord rest = true

def Entered (name after : Text) : Prop := CallEnters name after ∨ SubscriptEnters name after

def InParentheses (o t : Token) : Prop :=
  o.kind = .function ∧ ∃ name arguments, o.value = name ++ '(' :: (arguments ++ [')']) ∧
    '(' ∉ name ∧ o.index + name.length < t.index ∧ t.stop < o.stop

end Escape

theorem slash_apart : isWord '\\' = false := rfl

namespace Reads

open Reading

variable {escaped : Bool} {ps : Reading} {c : Char} {x y : Text}

-- A mark stands between two parts of the reading, or it lies in a call.
def Marked (ps : Reading) (c : Char) (x y : Text) : Prop :=
  (∃ as bs, ps = as ++ .gap [c] :: bs ∧ text as = x ∧ text bs = y ∧ Reads (c == '\\') bs) ∨
  ∃ as u bs, ps = as ++ .operand .function u :: bs ∧ (text as).length ≤ x.length ∧
    x.length < (text as).length + u.length

theorem Marked.prepend (marked : Marked ps c x y) (front : Reading) :
    Marked (front ++ ps) c (text front ++ x) y := by
  rcases marked with ⟨as, bs, split, whole, back, reads⟩ | ⟨as, u, bs, split, first, second⟩
  · exact .inl ⟨front ++ as, bs, by rw [split, List.append_assoc], by rw [text_append, whole], back,
      reads⟩
  · refine .inr ⟨front ++ as, u, bs, by rw [split, List.append_assoc], ?_, ?_⟩ <;>
      simp only [text_append, List.length_append] <;> omega

theorem run_before_mark {w r : Text} (word : ∀ d ∈ w, isWord d = true) (apart : isWord c = false)
    (same : w ++ r = x ++ c :: y) : ∃ x', x = w ++ x' ∧ r = x' ++ c :: y := by
  rcases Nat.lt_or_ge x.length w.length with inside | passed
  · obtain ⟨z, rfl, back⟩ := cut_behind same.symm (Nat.le_of_lt inside)
    cases z with
    | nil => simp at inside
    | cons d z =>
      obtain ⟨rfl, _⟩ := List.cons.inj back
      rw [word c (by simp)] at apart
      cases apart
  · exact cut_behind same passed

theorem mark_read (reads : Reads escaped ps) (apart : isWord c = false)
    (same : text ps = x ++ c :: y) : Marked ps c x y := by
  induction reads generalizing x with
  | done => simp at same
  | @mark escaped d rest mark later ih =>
    rw [text_cons, Part.text, List.singleton_append] at same
    cases x with
    | nil =>
      obtain ⟨rfl, rfl⟩ := List.cons.inj same
      exact .inl ⟨[], rest, rfl, rfl, rfl, later⟩
    | cons e x =>
      obtain ⟨rfl, back⟩ := List.cons.inj same
      exact (ih back).prepend [.gap [d]]
  | @word escaped w rest run closed plain later ih =>
    rw [text_cons, Part.text_ofWord] at same
    obtain ⟨x', rfl, back⟩ := run_before_mark run.2 apart same
    have prepended := (ih back).prepend [Part.ofWord escaped w]
    rwa [text_cons, text_nil, Part.text_ofWord, List.append_nil] at prepended
  | @call escaped w u rest word plain isCall later ih =>
    rw [text_lead, text_cons, Part.text] at same
    obtain ⟨x', rfl, back⟩ := run_before_mark word apart same
    have split : ∀ ps, Part.lead w (.operand .function u :: ps) =
        Part.lead w [.operand .function u] ++ ps := fun ps => by cases w <;> rfl
    rcases Nat.lt_or_ge x'.length u.length with inside | passed
    · have place : text (Part.lead w []) = w := by simp
      refine .inr ⟨Part.lead w [], u, rest, by cases w <;> rfl, ?_, ?_⟩ <;>
        simp only [place, List.length_append] <;> omega
    · obtain ⟨z, rfl, behind⟩ := cut_behind back passed
      have whole : text (Part.lead w [.operand .function u]) = w ++ u := by simp [Part.text]
      have prepended := (ih behind).prepend (Part.lead w [.operand .function u])
      rwa [whole, ← split, List.append_assoc] at prepended

end Reads

namespace Escape

open Reading

variable {before name after w r : Text} {ps : Reading} {position : Nat}

theorem letters_in_run (letters : ∀ c ∈ name, isLetter c = true) (closed : closesWord r = true)
    (same : w ++ r = name ++ after) : ∃ z, w = name ++ z ∧ after = z ++ r := by
  rcases Nat.lt_or_ge w.length name.length with short | reaches
  · obtain ⟨z, rfl, rfl⟩ := Reads.cut_behind same (Nat.le_of_lt short)
    cases z with
    | nil => simp at short
    | cons d z =>
      rw [List.cons_append, closesWord_cons, isWord_of_isLetter (letters d (by simp))] at closed
      cases closed
  · exact Reads.cut_behind same.symm reaches

theorem callEnters_ahead (enters : CallEnters name after) :
    ∃ u v, name = u ++ v ∧ v ≠ [] ∧ CallAhead (v ++ after) := by
  obtain ⟨n, member, ⟨u, rfl⟩, arguments, rest, rfl, free, admitted⟩ := enters
  exact ⟨u, n.1, rfl, (callNames_plain n member).1, n.1 ++ '(' :: (arguments ++ [')']), rest, by simp,
    n, member, arguments, rfl, free, admitted⟩

theorem not_callEnters (plain : NoCallIn (name ++ w) r) (same : after = w ++ r) :
    ¬ CallEnters name after := by
  intro enters
  obtain ⟨u, v, rfl, filled, ahead⟩ := callEnters_ahead enters
  refine plain u (v ++ w) (List.append_assoc ..) (by simp [filled]) ?_
  rwa [List.append_assoc, ← same]

theorem entering_word {z : Text} {rest : Reading} (named : name ≠ [])
    (letters : ∀ c ∈ name, isLetter c = true) {o : Token}
    (member : o ∈ tokens position (Part.ofWord true (name ++ z) :: rest))
    (reaches : o.index < position + name.length) :
    o.value = name ++ z ∧ isSubscriptedWord (name ++ z) = true := by
  have apart : o ∉ tokens (position + (name ++ z).length) rest := by
    intro later
    have behind := position_le later
    rw [List.length_append] at behind
    omega
  rcases Part.ofWord_cases true (name ++ z) with ⟨own, form⟩ | ⟨_, number⟩ | ⟨gap, _⟩
  · rw [own] at member
    rcases List.mem_cons.1 member with rfl | later
    · rcases form with subscripted | ⟨_, unescaped⟩
      · exact ⟨rfl, subscripted⟩
      · cases unescaped
    · exact absurd later apart
  · obtain ⟨d, more, rfl⟩ := List.exists_cons_of_ne_nil named
    have digit := (isNumberWord_iff.1 number).2 d (by simp)
    rw [not_isDigit_of_isLetter (letters d (by simp))] at digit
    cases digit
  · rw [gap] at member
    exact absurd member apart

theorem entered_word_iff {z : Text} {rest : Reading} (run : IsRun (name ++ z))
    (closes : closesWord (text rest) = true) (plain : NoCallIn (name ++ z) (text rest))
    (named : name ≠ []) (letters : ∀ c ∈ name, isLetter c = true) :
    (∃ o ∈ tokens position (Part.ofWord true (name ++ z) :: rest), o.index < position + name.length) ↔
      Entered name (z ++ text rest) := by
  have filled := List.length_pos_iff.2 named
  constructor
  · rintro ⟨o, member, reaches⟩
    have subscripted := (entering_word named letters member reaches).2
    exact .inr ⟨name ++ z, text rest, (List.append_assoc ..).symm, subscripted, closes⟩
  · rintro (call | ⟨w, r, same, form, closes'⟩)
    · exact absurd call (not_callEnters plain rfl)
    · rw [← List.append_assoc] at same
      obtain ⟨rfl, _⟩ := run_unique run closes (isRun_of_subscripted form) closes' same
      rw [Part.ofWord_subscripted true form]
      exact ⟨_, List.mem_cons_self, Nat.lt_add_of_pos_right filled⟩

theorem callEnters_of_short {u rest : Text} (isCall : IsCall u)
    (same : w ++ (u ++ rest) = name ++ after) (letters : ∀ c ∈ name, isLetter c = true)
    (closed : ∀ c, after.head? = some c → isLetter c = false) (short : w.length < name.length) :
    CallEnters name after := by
  obtain ⟨n, member, arguments, rfl, free, admitted⟩ := isCall
  rw [List.append_assoc, List.cons_append, ← List.append_assoc] at same
  obtain ⟨z, whole, rfl⟩ := letters_in_run letters rfl same
  obtain ⟨v, rfl, name_eq⟩ := Reads.cut_behind whole (Nat.le_of_lt short)
  cases z with
  | nil =>
    rw [List.append_nil] at name_eq
    exact ⟨n, member, ⟨w, by rw [name_eq]⟩, arguments, rest, by simp, free, admitted⟩
  | cons d z =>
    have apart := closed d rfl
    rw [(callNames_plain n member).2 d (by simp [name_eq])] at apart
    cases apart

theorem run_of_call {n : Text × ArgumentShape} (word : ∀ c ∈ w, isWord c = true)
    (member : n ∈ callNames) : IsRun (w ++ n.1) :=
  ⟨by simp [(callNames_plain n member).1], fun c inside =>
    (List.mem_append.1 inside).elim (word c) ((name_run member).2 c)⟩

theorem not_subscriptEnters {u rest : Text} (word : ∀ c ∈ w, isWord c = true) (isCall : IsCall u)
    (same : w ++ (u ++ rest) = name ++ after) : ¬ SubscriptEnters name after := by
  rintro ⟨v, r, split, form, closes⟩
  obtain ⟨n, member, arguments, rfl, free, admitted⟩ := isCall
  rw [split, List.append_assoc, List.cons_append, ← List.append_assoc] at same
  obtain ⟨rfl, rfl⟩ := run_unique (run_of_call word member) rfl (isRun_of_subscripted form) closes same
  have isVariable : isVariable (w ++ n.1) = true := by simp [isVariable, form]
  refine noCallIn_variable isVariable closes w n.1 rfl (name_run member).1 ?_
  exact ⟨n.1 ++ '(' :: (arguments ++ [')']), rest, by simp, n, member, arguments, rfl, free, admitted⟩

theorem entering_call {u : Text} {rest : Reading} (isCall : IsCall u)
    (same : w ++ (u ++ text rest) = name ++ after) (letters : ∀ c ∈ name, isLetter c = true) {o : Token}
    (member : o ∈ tokens position (Part.lead w (.operand .function u :: rest)))
    (reaches : o.index < position + name.length) : o = ⟨u, position + w.length, .function⟩ := by
  rw [tokens_lead] at member
  rcases List.mem_cons.1 member with rfl | later
  · rfl
  · obtain ⟨n, inNames, arguments, rfl, _, _⟩ := isCall
    rw [List.append_assoc, List.cons_append, ← List.append_assoc] at same
    obtain ⟨z, whole, _⟩ := letters_in_run letters rfl same
    have size := congrArg List.length whole
    have behind := position_le later
    simp only [List.length_append, List.length_cons] at size behind
    omega

theorem entered_call_iff {u : Text} {rest : Reading} (word : ∀ c ∈ w, isWord c = true)
    (plain : NoCallIn w (u ++ text rest)) (isCall : IsCall u)
    (same : w ++ (u ++ text rest) = name ++ after) (letters : ∀ c ∈ name, isLetter c = true)
    (closed : ∀ c, after.head? = some c → isLetter c = false) :
    (∃ o ∈ tokens position (Part.lead w (.operand .function u :: rest)),
      o.index < position + name.length) ↔ Entered name after := by
  constructor
  · rintro ⟨o, member, reaches⟩
    obtain rfl := entering_call isCall same letters member reaches
    exact .inl (callEnters_of_short isCall same letters closed (Nat.lt_of_add_lt_add_left reaches))
  · rw [tokens_lead]
    rintro (call | subscript)
    · rcases Nat.lt_or_ge w.length name.length with short | reaches
      · exact ⟨_, List.mem_cons_self, Nat.add_lt_add_left short position⟩
      · obtain ⟨z, rfl, back⟩ := Reads.cut_behind same.symm reaches
        exact absurd call (not_callEnters plain back)
    · exact absurd subscript (not_subscriptEnters word isCall same)

theorem entered_iff (reads : Reads true ps) (same : text ps = name ++ after) (named : name ≠ [])
    (letters : ∀ c ∈ name, isLetter c = true)
    (closed : ∀ c, after.head? = some c → isLetter c = false) :
    ((∃ o ∈ tokens position ps, o.index < position + name.length) ↔ Entered name after) ∧
      ∀ o ∈ tokens position ps, o.index < position + name.length →
        o.kind = .function ∨ isSubscriptedWord o.value = true := by
  cases reads with
  | done => simp [named] at same
  | @mark _ c rest apart later =>
    obtain ⟨d, more, rfl⟩ := List.exists_cons_of_ne_nil named
    rw [text_cons, Part.text] at same
    obtain ⟨rfl, _⟩ := List.cons.inj same
    rw [isWord_of_isLetter (letters c (by simp))] at apart
    cases apart
  | @word _ w rest run closes plain later =>
    rw [text_cons, Part.text_ofWord] at same
    obtain ⟨z, rfl, rfl⟩ := letters_in_run letters closes same
    refine ⟨entered_word_iff run closes plain named letters, fun o member reaches => .inr ?_⟩
    obtain ⟨value, subscripted⟩ := entering_word named letters member reaches
    rwa [value]
  | @call _ w u rest word plain isCall later =>
    rw [text_lead, text_cons, Part.text] at same
    refine ⟨entered_call_iff word plain isCall same letters closed, fun o member reaches => .inl ?_⟩
    rw [entering_call isCall same letters member reaches]

variable {e : Text}

theorem inParentheses_of_call {u front rest : Text} (isCall : IsCall u)
    (same : u ++ rest = front ++ '\\' :: (name ++ after)) (letters : ∀ c ∈ name, isLetter c = true)
    (inside : front.length < u.length) (i : Nat) (place : before.length = i + front.length) :
    InParentheses ⟨u, i, .function⟩ (lexeme before name) := by
  have notLetter : isLetter '(' = false ∧ isLetter ')' = false := by decide
  have beyond : front.length + name.length + 1 < u.length := by
    obtain ⟨z, rfl, back⟩ := Reads.cut_behind same.symm (Nat.le_of_lt inside)
    cases z with
    | nil => simp at inside
    | cons d z =>
      obtain ⟨rfl, behind⟩ := List.cons.inj back
      rcases Nat.lt_or_ge name.length z.length with longer | short
      · simp only [List.length_append, List.length_cons]
        omega
      · obtain ⟨y, rfl, _⟩ := Reads.cut_behind behind.symm short
        have closing := closing_of_isCall isCall rfl (List.cons_ne_nil _ _)
        rcases List.mem_cons.1 closing with other | member
        · exact absurd other (by decide)
        · have letter := letters ')' (List.mem_append_left y member)
          rw [notLetter.2] at letter
          cases letter
  obtain ⟨n, member, arguments, rfl, free, admitted⟩ := isCall
  have plain := (callNames_plain n member).2
  refine ⟨rfl, n.1, arguments, rfl, fun opens => ?_, ?_, ?_⟩
  · have letter := plain '(' opens
    rw [notLetter.1] at letter
    cases letter
  · rw [List.append_assoc, List.cons_append] at same
    obtain ⟨x, rfl, back⟩ := Reads.run_before_mark (name_run member).2 slash_apart same
    cases x with
    | nil => exact absurd (List.cons.inj back).1 (by decide)
    | cons d x =>
      simp only [lexeme, place, List.length_append, List.length_cons]
      omega
  · simp only [Span.stop, lexeme, place, List.length_cons]
    omega

theorem overlaps_iff {o : Token} : o.overlaps (lexeme before name) = true ↔
    o.index < before.length + name.length + 1 ∧ before.length < o.stop := by
  simp only [Span.overlaps, Bool.and_eq_true, decide_eq_true_eq]
  rw [Span.stop, lexeme, List.length_cons, Nat.add_assoc]

theorem stretch_passes (escape : Escape e before name after)
    (quiet : ∀ o ∈ extract e, o.overlaps (lexeme before name) = false) {i j : Nat}
    (stretch : Stretch (extract e) 0 e.length i j) (reaches : before.length < j) :
    before.length + name.length + 1 ≤ j := by
  rcases stretch.closes with rfl | ⟨s, member, rfl⟩
  · rw [escape.whole]
    simp only [List.length_append, List.length_cons]
    omega
  · apply Nat.le_of_not_lt
    intro inside
    have meet : s.overlaps (lexeme before name) = true :=
      overlaps_iff.2 ⟨inside, Nat.lt_of_lt_of_le reaches (Nat.le_add_right _ _)⟩
    rw [quiet s member] at meet
    cases meet

theorem name_eq (escape : Escape e before name after) {letters back rest : Text}
    (same : name ++ after = letters ++ (back ++ rest)) (plain : ∀ c ∈ letters, isLetter c = true)
    (closed : ∀ c, back.head? = some c → isLetter c = false)
    (passes : name.length ≤ letters.length + back.length) : letters = name := by
  rcases Nat.lt_or_ge letters.length name.length with short | longer
  · obtain ⟨y, whole, behind⟩ := Reads.cut_behind same.symm (Nat.le_of_lt short)
    rw [whole, List.length_append] at short passes
    obtain ⟨d, y, rfl⟩ := List.exists_cons_of_ne_nil (List.ne_nil_of_length_pos (l := y) (by omega))
    obtain ⟨c, back, rfl⟩ := List.exists_cons_of_ne_nil (List.ne_nil_of_length_pos (l := back) (by omega))
    have apart := closed c rfl
    rw [(List.cons.inj behind).1, escape.letters d (by simp [whole])] at apart
    cases apart
  · obtain ⟨y, rfl, behind⟩ := Reads.cut_behind same longer
    cases y with
    | nil => exact List.append_nil name
    | cons d y =>
      have apart := escape.closed d (by rw [behind]; rfl)
      rw [plain d (by simp)] at apart
      cases apart

theorem lexeme_at_slash (escape : Escape e before name after) {P : Text → Text → Prop}
    {front start v back rest : Text} {k : Kind} (shape : Lexeme.Shape P front back v k)
    (same : e = start ++ (v ++ (back ++ rest))) (low : start.length ≤ before.length)
    (high : before.length < start.length + v.length)
    (passes : before.length + name.length + 1 ≤ start.length + v.length + back.length) :
    start = before ∧ v = '\\' :: name ∧ (k = .operator ∨ k = .branch) := by
  rw [escape.whole] at same
  obtain ⟨x, rfl, holds⟩ := Reads.cut_behind same.symm low
  rw [List.length_append] at high passes
  obtain ⟨z, rfl, behind⟩ := Reads.cut_behind holds.symm (by omega)
  cases z with
  | nil => simp at high
  | cons d letters =>
    obtain ⟨rfl, tail⟩ := List.cons.inj behind
    obtain ⟨rfl, plain, closed, kind⟩ := shape.of_slash
    simp only [List.length_nil, List.nil_append, List.length_cons] at passes
    obtain rfl := name_eq escape tail plain closed (by omega)
    exact ⟨(List.append_nil start).symm, rfl, kind escape.named⟩

theorem token_of_quiet (escape : Escape e before name after)
    (quiet : ∀ o ∈ extract e, o.overlaps (lexeme before name) = false) :
    ∃ t ∈ Expression.tokens e, t.index = before.length ∧ t.value = '\\' :: name ∧
      (t.kind = .operator ∨ t.kind = .branch) := by
  have woven := Expression.woven_tokens e
  obtain ⟨⟨v, i, k⟩, member, low, high⟩ := woven.covers escape.whole Lexeme.slash_visible.1
  rw [Nat.zero_add] at low high
  have other : k.isOperand = false := by
    cases operand : k.isOperand with
    | false => rfl
    | true =>
      have inOperands : (⟨v, i, k⟩ : Token) ∈ extract e := by
        rw [← woven.operands Expression.isOperand_of_mem_extract]
        exact List.mem_filter.2 ⟨member, operand⟩
      have meet : Span.overlaps ⟨v, i, k⟩ (lexeme before name) = true :=
        overlaps_iff.2 ⟨by omega, high⟩
      rw [quiet _ inOperands] at meet
      cases meet
  obtain ⟨outer, front, back, rest, same, place, stretch, shape⟩ :=
    Expression.inStretch_of_mem member other
  rw [List.append_assoc, List.append_assoc, List.append_assoc, ← List.append_assoc] at same
  have reaches : (outer ++ (front ++ (v ++ back))).length =
      (outer ++ front).length + v.length + back.length := by
    simp only [List.length_append, Nat.add_assoc]
  change before.length < i + v.length at high
  rw [show i = (outer ++ front).length from place] at low high
  have passes := stretch_passes escape quiet stretch (by rw [reaches]; omega)
  rw [reaches] at passes
  obtain ⟨rfl, rfl, kind⟩ := lexeme_at_slash escape shape same low high passes
  exact ⟨_, member, place, rfl, kind⟩

theorem token_iff (escape : Escape e before name after) :
    (∃ t ∈ Expression.tokens e, t.index = before.length ∧ t.value = '\\' :: name ∧
      (t.kind = .operator ∨ t.kind = .branch)) ↔
      ∀ o ∈ extract e, o.overlaps (lexeme before name) = false := by
  refine ⟨?_, token_of_quiet escape⟩
  rintro ⟨⟨v, i, k⟩, member, rfl, rfl, kind⟩ o inOperands
  cases meet : o.overlaps (lexeme before name) with
  | false => rfl
  | true =>
    have woven := Expression.woven_tokens e
    have inTokens : o ∈ Expression.tokens e := by
      rw [← woven.operands Expression.isOperand_of_mem_extract] at inOperands
      exact (List.mem_filter.1 inOperands).1
    obtain rfl := Cover.eq_of_overlaps woven.ordered inTokens member meet
    have operand := Expression.isOperand_of_mem_extract _ inOperands
    rcases kind with kind | kind <;> rw [kind] at operand <;> cases operand

theorem touching_iff (escape : Escape e before name after)
    (outside : ∀ o ∈ extract e, ¬ InParentheses o (lexeme before name)) :
    ∃ bs, Reads true bs ∧ text bs = name ++ after ∧ ∀ o, (o ∈ extract e ∧
      o.overlaps (lexeme before name) = true) ↔
        o ∈ tokens (before.length + 1) bs ∧ o.index < before.length + 1 + name.length := by
  obtain ⟨ps, reads, text_eq⟩ := Reads.exists_of_text e false
  rw [← text_eq, reads.extract_text] at outside ⊢
  have same := text_eq.trans escape.whole
  rcases reads.mark_read slash_apart same with ⟨as, bs, rfl, rfl, back, later⟩ |
    ⟨as, u, bs, rfl, first, second⟩
  · refine ⟨bs, later, back, fun o => ?_⟩
    rw [tokens_append, tokens, Nat.zero_add, List.mem_append]
    constructor
    · rintro ⟨member, meet⟩
      obtain ⟨begins, ends⟩ := overlaps_iff.1 meet
      rcases member with earlier | later
      · have stops := stop_le earlier
        omega
      · exact ⟨later, by omega⟩
    · rintro ⟨member, begins⟩
      refine ⟨.inr member, overlaps_iff.2 ⟨by omega, ?_⟩⟩
      have := position_le member
      simp only [Span.stop]
      omega
  · have held : ⟨u, (text as).length, .function⟩ ∈ tokens 0 (as ++ .operand .function u :: bs) :=
      mem_tokens.2 ⟨as, bs, rfl, (Nat.zero_add _).symm⟩
    have isCall : IsCall u := by
      rcases reads.operand_cases (k := .function) (v := u) (by simp) with
        ⟨_, isCall⟩ | ⟨other, _⟩ | ⟨other, _⟩
      · exact isCall
      · cases other
      · cases other
    rw [text_append, text_cons, Part.text] at same
    obtain ⟨x, rfl, rest⟩ := Reads.cut_behind same first
    rw [List.length_append] at second
    exact absurd (inParentheses_of_call isCall rest escape.letters (by omega) _ List.length_append)
      (outside _ held)

-- Outside the calls an escape stands alone and is one token, unless an operand enters it; no
-- single letter and no number does.
theorem apart_iff (escape : Escape e before name after)
    (outside : ∀ o ∈ extract e, ¬ InParentheses o (lexeme before name)) :
    ((∀ o ∈ extract e, o.overlaps (lexeme before name) = false) ↔ ¬ Entered name after) ∧
    ((∃ t ∈ Expression.tokens e, t.index = before.length ∧ t.value = '\\' :: name ∧
      (t.kind = .operator ∨ t.kind = .branch)) ↔ ¬ Entered name after) ∧
    ∀ o ∈ extract e, o.overlaps (lexeme before name) = true →
      o.kind = .function ∨ isSubscriptedWord o.value = true := by
  obtain ⟨bs, reads, back, touching⟩ := touching_iff escape outside
  obtain ⟨entered, forms⟩ := @entered_iff _ _ _ (before.length + 1) reads back escape.named
    escape.letters escape.closed
  have operands : (∀ o ∈ extract e, o.overlaps (lexeme before name) = false) ↔
      ¬ Entered name after := by
    rw [← entered, not_exists]
    refine forall_congr' fun o => ?_
    rw [← touching o, not_and, Bool.not_eq_true]
  exact ⟨operands, (token_iff escape).trans operands, fun o member meet =>
    (touching o).1 ⟨member, meet⟩ |>.elim (forms o)⟩

theorem not_entered (named : name ≠ []) (letters : ∀ c ∈ name, isLetter c = true)
    (closes : closesWord after = true) (bare : ∀ rest, after ≠ '(' :: rest) :
    ¬ Entered name after := by
  rintro (⟨n, _, _, arguments, rest, opens, _⟩ | ⟨w, rest, same, form, closes'⟩)
  · exact bare _ opens
  · have run : IsRun name := ⟨named, fun c member => isWord_of_isLetter (letters c member)⟩
    obtain ⟨rfl, _⟩ := run_unique run closes (isRun_of_subscripted form) closes' same
    obtain ⟨c, stem, digits, rfl, _⟩ := isSubscriptedWord_iff.1 form
    have letter := letters '_' (by simp)
    revert letter
    decide

theorem apart_at_operator :
    (∀ o ∈ extract ", i \\Os,".toList, o.overlaps (lexeme ", i ".toList "Os".toList) = false) ∧
    ∃ t ∈ Expression.tokens ", i \\Os,".toList, t.index = (", i ".toList).length ∧
      t.value = '\\' :: "Os".toList ∧ (t.kind = .operator ∨ t.kind = .branch) := by
  have spans : extract ", i \\Os,".toList = [⟨['i'], 2, .variable⟩] := by decide_cbv
  have letters : ∀ c ∈ "Os".toList, isLetter c = true := List.all_eq_true.1 (by decide)
  have escape : Escape ", i \\Os,".toList ", i ".toList "Os".toList ",".toList := by
    refine ⟨by decide, by decide, letters, fun c first => ?_⟩
    obtain rfl := Option.some.inj (show some ',' = some c from first)
    decide
  have outside : ∀ o ∈ extract ", i \\Os,".toList,
      ¬ InParentheses o (lexeme ", i ".toList "Os".toList) := by
    rw [spans]
    rintro o member ⟨isCall, _⟩
    rw [List.mem_singleton.1 member] at isCall
    cases isCall
  have free : ¬ Entered "Os".toList ",".toList :=
    not_entered (by decide) letters (by decide) (fun rest opens => by cases opens)
  obtain ⟨operands, token, _⟩ := apart_iff escape outside
  exact ⟨operands.2 free, token.2 free⟩

-- The call R(i) takes the letter of an escape.
theorem not_escape_apart : ¬ ∀ e before name after, Escape e before name after →
    (∀ o ∈ extract e, ¬ InParentheses o (lexeme before name)) →
    (∀ o ∈ extract e, o.overlaps (lexeme before name) = false) ∧
    ∃ t ∈ Expression.tokens e, t.index = before.length ∧ t.value = '\\' :: name ∧
      (t.kind = .operator ∨ t.kind = .branch) := by
  intro apart
  have spans : extract "\\R(i)".toList = [⟨"R(i)".toList, 1, .function⟩] := by decide_cbv
  have escape : Escape "\\R(i)".toList [] ['R'] "(i)".toList := by
    refine ⟨by decide, by decide, List.all_eq_true.1 (by decide), fun c first => ?_⟩
    obtain rfl := Option.some.inj (show some '(' = some c from first)
    decide
  have outside : ∀ o ∈ extract "\\R(i)".toList, ¬ InParentheses o (lexeme [] ['R']) := by
    rintro o _ ⟨_, _, _, _, _, begins, _⟩
    exact Nat.not_lt_zero _ begins
  have quiet := (apart _ _ _ _ escape outside).1
  rw [spans] at quiet
  have meet := quiet _ List.mem_cons_self
  revert meet
  decide

end Escape
end OperatorCalculus
