import Mathlib.Data.List.Permutation
import OperatorCalculus.Proofs.Expression.Lexemes

namespace OperatorCalculus

open Text Lexeme

-- A piece of a text from first to last that reaches from span to span and touches none.
structure Stretch (spans : List Token) (first last i j : Nat) : Prop where
  opens : i = first ∨ ∃ s ∈ spans, s.stop = i
  closes : j = last ∨ ∃ s ∈ spans, s.index = j
  free : ∀ s ∈ spans, s.stop ≤ i ∨ j ≤ s.index

theorem Stretch.behind {spans : List Token} {first last i j : Nat} {o : Token}
    (stretch : Stretch spans o.stop last i j) (passed : o.stop ≤ i) :
    Stretch (o :: spans) first last i j where
  opens := by
    rcases stretch.opens with rfl | ⟨s, member, ends⟩
    · exact .inr ⟨o, List.mem_cons_self, rfl⟩
    · exact .inr ⟨s, List.mem_cons_of_mem _ member, ends⟩
  closes := stretch.closes.imp id fun ⟨s, member, begins⟩ => ⟨s, List.mem_cons_of_mem _ member, begins⟩
  free := List.forall_mem_cons.2 ⟨.inl passed, stretch.free⟩

namespace Expression

def InStretch (P : Text → Text → Prop) (e : Text) (t : Token) : Prop :=
  ∃ before front back after, e = before ++ (front ++ (t.value ++ back)) ++ after ∧
    t.index = (before ++ front).length ∧
    Stretch (Operand.extract e) 0 e.length before.length
      (before ++ (front ++ (t.value ++ back))).length ∧
    Shape P front back t.value t.kind

inductive Woven : Nat → Text → List Token → List Token → Prop where
  | last {i : Nat} {t : Text} {ts : List Token} (cut : Cut i t ts) : Woven i t [] ts
  | operand {i : Nat} {gap v rest : Text} {k : Kind} {ts os us : List Token} (filled : v ≠ [])
      (cut : Cut i gap ts) (later : Woven (i + gap.length + v.length) rest os us) :
      Woven i (gap ++ (v ++ rest)) (⟨v, i + gap.length, k⟩ :: os)
        (ts ++ ⟨v, i + gap.length, k⟩ :: us)

open Reading

theorem woven_weave {ps : Reading} (filled : ∀ k v, Part.operand k v ∈ ps → v ≠ [])
    (front pending : Text) :
    Woven front.length (pending ++ text ps) (Reading.tokens (front ++ pending).length ps)
      (weave (front ++ pending ++ text ps) front.length
        (Reading.tokens (front ++ pending).length ps)) := by
  induction ps generalizing front pending with
  | nil =>
    have gathered : (front ++ pending ++ text []).drop front.length = pending := by simp
    have whole : pending ++ text [] = pending := by simp
    rw [Reading.tokens, weave, gathered, whole]
    exact .last (cut_ofGap _ _)
  | cons p rest ih =>
    have later := ih fun k v member => filled k v (List.mem_cons_of_mem _ member)
    cases p with
    | gap t =>
      have own := later front (pending ++ t)
      simpa only [text_cons, Part.text, Reading.tokens, List.append_assoc, List.length_append,
        Nat.add_assoc] using own
    | operand k v =>
      have own := later (front ++ pending ++ v) []
      have reached : (front ++ pending).length + v.length = (front ++ pending ++ v).length := by
        rw [← List.length_append]
      have gathered : ((front ++ pending ++ (v ++ text rest)).drop front.length).take
          ((front ++ pending).length - front.length) = pending := by
        rw [List.append_assoc, List.drop_left, List.length_append, Nat.add_sub_cancel_left,
          List.take_left]
      have place : (front ++ pending).length = front.length + pending.length := List.length_append
      simp only [List.append_nil, List.nil_append] at own
      simp only [text_cons, Part.text, Reading.tokens, weave, Span.stop, gathered, reached]
      rw [← List.append_assoc (front ++ pending), place]
      refine .operand (filled k v (by simp)) (cut_ofGap _ _) ?_
      rwa [← place, reached]

namespace Woven

variable {i : Nat} {t : Text} {os us : List Token}

theorem split (woven : Woven i t os us) : ∀ tok ∈ us, tok.value ≠ [] ∧
    ∃ front back, t = front ++ (tok.value ++ back) ∧ tok.index = i + front.length := by
  induction woven with
  | last cut =>
    intro tok member
    obtain ⟨front, back, same, place, shape⟩ := cut.split tok member
    exact ⟨shape.filled, front, back, same, place⟩
  | @operand i gap v rest k ts os us filled cut later ih =>
    intro tok member
    rcases List.mem_append.1 member with inGap | member
    · obtain ⟨front, back, rfl, place, shape⟩ := cut.split tok inGap
      exact ⟨shape.filled, front, back ++ (v ++ rest), by simp, place⟩
    · rcases List.mem_cons.1 member with rfl | member
      · exact ⟨filled, gap, rest, rfl, rfl⟩
      · obtain ⟨some, front, back, rfl, place⟩ := ih tok member
        exact ⟨some, gap ++ (v ++ front), back, by simp, by simp [place]; omega⟩

theorem within (woven : Woven i t os us) {tok : Token} (member : tok ∈ us) :
    i ≤ tok.index ∧ tok.stop ≤ i + t.length := by
  obtain ⟨_, front, back, same, place⟩ := woven.split tok member
  exact tok.within same place

theorem placed (woven : Woven i t os us) : ∀ o ∈ os, i ≤ o.index := by
  induction woven with
  | last cut => nofun
  | operand filled cut later ih =>
    refine List.forall_mem_cons.2 ⟨Nat.le_add_right _ _, fun o member => ?_⟩
    have := ih o member
    omega

theorem ordered (woven : Woven i t os us) : us.Pairwise fun a b => a.stop ≤ b.index := by
  induction woven with
  | last cut => exact cut.ordered
  | @operand i gap v rest k ts os us filled cut later ih =>
    refine List.pairwise_append.2 ⟨cut.ordered, List.pairwise_cons.2 ⟨?_, ih⟩, ?_⟩
    · intro tok member
      exact (later.within member).1
    · intro a inGap b member
      have ends := (cut.within inGap).2
      rcases List.mem_cons.1 member with rfl | member
      · exact ends
      · have begins := (later.within member).1
        omega

theorem covers (woven : Woven i t os us) {before after : Text} {c : Char}
    (same : t = before ++ c :: after) (visible : isBlank c = false) :
    ∃ tok ∈ us, tok.index ≤ i + before.length ∧ i + before.length < tok.stop := by
  induction woven generalizing before with
  | last cut => exact cut.covers same visible
  | @operand i gap v rest k ts os us filled cut later ih =>
    rcases Nat.lt_or_ge before.length gap.length with inGap | passed
    · obtain ⟨between, rfl, back⟩ := Reads.cut_behind same.symm (Nat.le_of_lt inGap)
      cases between with
      | nil => simp at inGap
      | cons d between =>
        obtain rfl := (List.cons.inj back).1
        obtain ⟨tok, member, covered⟩ := cut.covers rfl visible
        exact ⟨tok, List.mem_append_left _ member, covered⟩
    · obtain ⟨x, rfl, back⟩ := Reads.cut_behind same passed
      rcases Nat.lt_or_ge x.length v.length with inside | passed
      · refine ⟨_, List.mem_append_right _ List.mem_cons_self, ?_⟩
        simp only [Span.stop, List.length_append]
        omega
      · obtain ⟨y, rfl, behind⟩ := Reads.cut_behind back passed
        obtain ⟨tok, member, low, high⟩ := ih behind
        refine ⟨tok, List.mem_append_right _ (List.mem_cons_of_mem _ member), ?_⟩
        simp only [List.length_append]
        omega

theorem operands (woven : Woven i t os us) (kinds : ∀ o ∈ os, o.kind.isOperand = true) :
    us.filter (·.kind.isOperand) = os := by
  have none : ∀ {i gap ts}, Cut i gap ts → ts.filter (·.kind.isOperand) = [] := by
    intro i gap ts cut
    refine List.filter_eq_nil_iff.2 fun tok member => ?_
    obtain ⟨_, _, _, _, shape⟩ := cut.split tok member
    rw [shape.not_operand]
    exact Bool.false_ne_true
  induction woven with
  | last cut => exact none cut
  | operand filled cut later ih =>
    obtain ⟨own, kinds⟩ := List.forall_mem_cons.1 kinds
    rw [List.filter_append, none cut, List.nil_append, List.filter_cons, if_pos own, ih kinds]

theorem stretched (woven : Woven i t os us) : ∀ tok ∈ us, tok ∈ os ∨
    ∃ before front back after, t = before ++ (front ++ (tok.value ++ back)) ++ after ∧
      tok.index = i + (before ++ front).length ∧
      Stretch os i (i + t.length) (i + before.length)
        (i + (before ++ (front ++ (tok.value ++ back))).length) ∧
      Shape Opens front back tok.value tok.kind := by
  induction woven with
  | last cut =>
    intro tok member
    obtain ⟨front, back, same, place, shape⟩ := cut.split tok member
    exact .inr ⟨[], front, back, [], by simp [same], place, ⟨.inl rfl, .inl (by simp [same]), nofun⟩,
      shape⟩
  | @operand i gap v rest k ts os us filled cut later ih =>
    intro tok member
    rcases List.mem_append.1 member with inGap | member
    · obtain ⟨front, back, rfl, place, shape⟩ := cut.split tok inGap
      refine .inr ⟨[], front, back, v ++ rest, rfl, place,
        ⟨.inl rfl, .inr ⟨_, List.mem_cons_self, rfl⟩, ?_⟩, shape⟩
      refine List.forall_mem_cons.2 ⟨.inr (Nat.le_refl _), fun o member => .inr ?_⟩
      have := later.placed o member
      simp only [List.nil_append] at this ⊢
      omega
    · rcases List.mem_cons.1 member with rfl | member
      · exact .inl List.mem_cons_self
      · rcases ih tok member with inOs | ⟨before, front, back, after, rfl, place, stretch, shape⟩
        · exact .inl (List.mem_cons_of_mem _ inOs)
        · have moved : ∀ part : Text, i + (gap ++ (v ++ part)).length =
              i + gap.length + v.length + part.length := by
            intro part
            simp only [List.length_append]
            omega
          have inner := @Stretch.behind _ i _ _ _ ⟨v, i + gap.length, k⟩ stretch
            (Nat.le_add_right _ _)
          simp only [← moved] at inner place
          exact .inr ⟨gap ++ (v ++ before), front, back, after, by simp, by simpa using place,
            by simpa using inner, shape⟩

end Woven

theorem woven_tokens (e : Text) : Woven 0 e (Operand.extract e) (tokens e) := by
  obtain ⟨ps, reads, rfl⟩ := Reads.exists_of_text e false
  have filled : ∀ k v, Part.operand k v ∈ ps → v ≠ [] := by
    intro k v member
    obtain ⟨c, rest, rfl, _⟩ := reads.operand_head member
    exact List.cons_ne_nil c rest
  rw [tokens, reads.extract_text]
  exact woven_weave filled [] []

theorem isOperand_of_mem_extract {e : Text} : ∀ o ∈ Operand.extract e, o.kind.isOperand = true := by
  obtain ⟨ps, reads, rfl⟩ := Reads.exists_of_text e false
  rw [reads.extract_text]
  intro o member
  obtain ⟨before, after, split, _⟩ := mem_tokens.1 member
  rcases reads.operand_cases (k := o.kind) (v := o.value) (by simp [split]) with
    ⟨kind, _⟩ | ⟨kind, _⟩ | ⟨kind, _⟩ <;> rw [kind] <;> rfl

theorem inStretch_of_mem {e : Text} {t : Token} (member : t ∈ tokens e)
    (other : t.kind.isOperand = false) : InStretch Opens e t := by
  rcases (woven_tokens e).stretched t member with
    operand | ⟨before, front, back, after, same, place, stretch, shape⟩
  · rw [isOperand_of_mem_extract t operand] at other
    cases other
  · rw [Nat.zero_add] at place
    simp only [Nat.zero_add] at stretch
    exact ⟨before, front, back, after, same, place, stretch, shape⟩

theorem standsIn_of_mem {e : Text} {t : Token} (member : t ∈ tokens e) :
    t.value ≠ [] ∧ t.StandsIn e := by
  obtain ⟨filled, front, back, same, place⟩ := (woven_tokens e).split t member
  refine ⟨filled, ?_, by simpa using ((woven_tokens e).within member).2⟩
  rw [place, Nat.zero_add, same, List.drop_left, List.take_left]

theorem blank_of_uncovered {e : Text} {i : Nat} {c : Char} (stands : e[i]? = some c)
    (apart : ∀ t ∈ tokens e, ¬ (t.index ≤ i ∧ i < t.stop)) : isBlank c = true := by
  obtain ⟨inside, own⟩ := List.getElem?_eq_some_iff.1 stands
  have same : e = e.take i ++ c :: e.drop (i + 1) := by
    rw [← own, ← List.drop_eq_getElem_cons inside, List.take_append_drop]
  cases blank : isBlank c with
  | true => rfl
  | false =>
    obtain ⟨t, member, low, high⟩ := (woven_tokens e).covers same blank
    rw [Nat.zero_add, List.length_take_of_le (Nat.le_of_lt inside)] at low high
    exact absurd ⟨low, high⟩ (apart t member)

theorem tokens_lossless (e : Text) :
    ((tokens e).Pairwise fun a b => a.stop ≤ b.index) ∧
    (∀ t ∈ tokens e, t.value ≠ [] ∧ t.StandsIn e) ∧
    (∀ i c, e[i]? = some c → (∀ t ∈ tokens e, ¬ (t.index ≤ i ∧ i < t.stop)) → isBlank c = true) ∧
    (tokens e).filter (·.kind.isOperand) = Operand.extract e ∧
    ∀ t ∈ tokens e, t.kind.isOperand = false →
      (∀ c ∈ t.value, isBlank c = false) ∧ InStretch Opens e t := by
  have woven := woven_tokens e
  refine ⟨woven.ordered, fun t => standsIn_of_mem, fun i c => blank_of_uncovered,
    woven.operands isOperand_of_mem_extract, fun t member other => ?_⟩
  obtain ⟨_, _, _, _, _, _, _, shape⟩ := inStretch_of_mem member other
  exact ⟨shape.visible, inStretch_of_mem member other⟩

-- Behind the letters of an escape a run goes on in the middle of plain characters.
theorem runs_not_whole : ¬ ∀ e, ∀ t ∈ tokens e, t.kind.isOperand = false →
    InStretch (fun front _ => BeginsRun front) e t := by
  intro whole
  have member : (⟨['1'], 3, .text⟩ : Token) ∈ tokens ['\\', 'O', 'a', '1'] := by decide_cbv
  have spans : Operand.extract ['\\', 'O', 'a', '1'] = [] := by decide_cbv
  obtain ⟨before, front, back, after, same, place, stretch, shape⟩ := whole _ _ member rfl
  rw [spans] at stretch
  have first : before = [] := by
    rcases stretch.opens with start | ⟨s, inside, _⟩
    · exact List.length_eq_zero_iff.1 start
    · cases inside
  subst first
  have front_eq : front = ['\\', 'O', 'a'] := by
    have size : front.length = 3 := place.symm
    have cut := congrArg (List.take front.length) same
    rw [List.nil_append, List.append_assoc, List.take_left, size] at cut
    exact cut.symm
  subst front_eq
  have begins : BeginsRun ['\\', 'O', 'a'] ∨ ∃ k, Catalog.punctuationKind? '1' = some k := by
    cases shape with
    | mark listed => exact .inr ⟨_, listed⟩
    | run filled plain opens closed => exact .inl opens
  rcases begins with begins | ⟨k, listed⟩
  · have apart := begins 'a' rfl
    revert apart
    decide
  · revert listed
    cases k <;> decide

end Expression
end OperatorCalculus
