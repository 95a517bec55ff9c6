import OperatorCalculus.Proofs.Inference.Replacement

namespace OperatorCalculus

theorem findSome?_least_iff {β : Type} {l : List Nat} {f : Nat → Option β} {b : β}
    (ordered : l.Pairwise (· < ·)) : l.findSome? f = some b ↔
      ∃ i ∈ l, f i = some b ∧ ∀ j ∈ l, (f j).isSome = true → i ≤ j := by
  rw [List.findSome?_eq_some_iff]
  constructor
  · rintro ⟨front, i, back, rfl, answer, silent⟩
    refine ⟨i, by simp, answer, ?_⟩
    intro j member answers
    rcases List.mem_append.1 member with earlier | later
    · rw [silent j earlier] at answers
      cases answers
    · rcases List.mem_cons.1 later with rfl | later
      · exact Nat.le_refl _
      · exact Nat.le_of_lt (List.rel_of_pairwise_cons (List.pairwise_append.1 ordered).2.1 later)
  · rintro ⟨i, member, answer, least⟩
    obtain ⟨front, back, rfl⟩ := List.append_of_mem member
    refine ⟨front, i, back, rfl, answer, ?_⟩
    intro j earlier
    have before := (List.pairwise_append.1 ordered).2.2 j earlier i (by simp)
    cases found : f j with
    | none => rfl
    | some b' =>
      have above := least j (by simp [earlier]) (by rw [found]; rfl)
      omega

namespace InContext

structure Direction where
  side : Side
  description : String
  container : Text
  found : Text
  replacement : Text
  expected : Text

namespace Direction

variable {d : Direction} {before after : Text} {p : Position}

-- Between these texts the side is found, and the other side there is the other target side.
def Fits (d : Direction) (before after : Text) : Prop :=
  isBlankList d.found = false ∧ d.container = before ++ d.found ++ after ∧
    d.expected = before ++ d.replacement ++ after

def Leads (d : Direction) (p : Position) : Prop :=
  ∃ before after, d.Fits before after ∧
    (∀ before' after', d.Fits before' after' → before.length ≤ before'.length) ∧
    p = ⟨d.side, d.description.toList, some before.length, some before, some after⟩

def position? (d : Direction) : Option Position :=
  (replace? d.container d.found d.replacement d.expected).map (positioned d.side d.description)

theorem position?_eq_none_iff : d.position? = none ↔ ∀ before after, ¬ d.Fits before after := by
  have hits := @replace?_isSome_iff d.container d.found d.replacement d.expected
  rw [position?, Option.map_eq_none_iff, ← Option.not_isSome_iff_eq_none, hits]
  constructor
  · intro none before after fits
    exact none ⟨fits.1, before, after, fits.2⟩
  · rintro none ⟨filled, before, after, fits⟩
    exact none before after ⟨filled, fits⟩

end Direction

variable {container found replacement expected : Text} {hit : Hit}

theorem replace?_eq_some_iff : replace? container found replacement expected = some hit ↔
    isBlankList found = false ∧ (container = hit.before ++ found ++ hit.after ∧
      expected = hit.before ++ replacement ++ hit.after) ∧ hit.offset = hit.before.length ∧
      ∀ before after, container = before ++ found ++ after →
        expected = before ++ replacement ++ after → hit.before.length ≤ before.length := by
  unfold replace?
  cases filled : isBlankList found with
  | true => simp
  | false =>
    rw [if_neg Bool.false_ne_true, findSome?_least_iff (Text.occurrences_ordered _ _)]
    constructor
    · rintro ⟨i, member, answer, least⟩
      obtain ⟨before, after, rfl, rfl⟩ := Text.mem_occurrences.1 member
      obtain ⟨same, rfl⟩ := replacing_eq_some_iff.1 answer
      refine ⟨rfl, ⟨rfl, same⟩, rfl, fun before' after' split same' => ?_⟩
      refine least before'.length (Text.mem_occurrences.2 ⟨before', after', split, rfl⟩) ?_
      rw [split]
      exact replacing_isSome_iff.2 same'
    · rintro ⟨_, ⟨split, same⟩, offset, least⟩
      obtain ⟨i, before, after⟩ := hit
      dsimp only at offset split same least ⊢
      subst offset split
      refine ⟨before.length, Text.mem_occurrences.2 ⟨before, after, rfl, rfl⟩,
        replacing_eq_some_iff.2 ⟨same, rfl⟩, fun j member answers => ?_⟩
      obtain ⟨before', after', split', rfl⟩ := Text.mem_occurrences.1 member
      rw [split'] at answers
      exact least before' after' split' (replacing_isSome_iff.1 answers)

theorem Direction.position?_eq_some_iff {d : Direction} {p : Position} :
    d.position? = some p ↔ d.Leads p := by
  rw [Direction.position?, Option.map_eq_some_iff]
  constructor
  · rintro ⟨hit, replaced, rfl⟩
    obtain ⟨filled, fits, offset, least⟩ := replace?_eq_some_iff.1 replaced
    refine ⟨hit.before, hit.after, ⟨filled, fits⟩, fun before' after' fits' => ?_, ?_⟩
    · exact least before' after' fits'.2.1 fits'.2.2
    · rw [positioned, offset]
  · rintro ⟨before, after, ⟨filled, fits⟩, least, rfl⟩
    refine ⟨⟨before.length, before, after⟩, ?_, rfl⟩
    exact replace?_eq_some_iff.2 ⟨filled, fits, rfl, fun before' after' split same =>
      least before' after' ⟨filled, split, same⟩⟩

def directions (target rule : Sides) : List Direction :=
  [⟨.left, "rule left found in target left", target.left, rule.left, rule.right, target.right⟩,
    ⟨.left, "rule right found in target left", target.left, rule.right, rule.left, target.right⟩,
    ⟨.right, "rule left found in target right", target.right, rule.left, rule.right, target.left⟩,
    ⟨.right, "rule right found in target right", target.right, rule.right, rule.left, target.left⟩]

def Located (target rule : Sides) (p : Position) : Prop :=
  ∃ earlier d later, directions target rule = earlier ++ d :: later ∧ d.Leads p ∧
    ∀ e ∈ earlier, ∀ before after, ¬ e.Fits before after

variable {target rule : Sides}

theorem substitution_eq_findSome? (target rule : Sides) :
    substitution target rule = (directions target rule).findSome? Direction.position? := by
  simp only [substitution, directions, List.findSome?_cons, List.findSome?_nil, Direction.position?]
  cases replace? target.left rule.left rule.right target.right <;>
  cases replace? target.left rule.right rule.left target.right <;>
  cases replace? target.right rule.left rule.right target.left <;>
  cases replace? target.right rule.right rule.left target.left <;> rfl

theorem substitution_eq_some_iff {p : Position} :
    substitution target rule = some p ↔ Located target rule p := by
  rw [substitution_eq_findSome?, List.findSome?_eq_some_iff]
  simp only [Located, Direction.position?_eq_some_iff, Direction.position?_eq_none_iff]

def Replaceable (target rule : Sides) : Prop :=
  (isBlankList rule.left = false ∨ isBlankList rule.right = false) ∧
    (Stands target rule ∨ Stands target rule.reverse)

end InContext

open WholeSide InContext

def WholeSide.Commutes (target rule : Sides) : Prop :=
  target.reverse = rule ∨ SameShape target.reverse rule ∧ renumbered target.reverse = rule

variable {target rule : Sides}

theorem infer?_cases (target rule : Sides) :
    (target = rule ∧ ∃ p, infer? target rule = some ⟨.exact, p⟩) ∨
    (target ≠ rule ∧ Commutes target rule ∧ ∃ p, infer? target rule = some ⟨.commutativity, p⟩) ∨
    (target ≠ rule ∧ ¬ Commutes target rule ∧
      infer? target rule = (substitution target rule).map (Finding.mk .substitution)) := by
  unfold infer?
  simp only [Law.listed, Law.check, List.findSome?_cons, List.findSome?_nil]
  by_cases same : target = rule
  · obtain ⟨p, found⟩ := Option.isSome_iff_exists.1 ((exact_isSome target rule).2 same)
    exact .inl ⟨same, p, by simp [found]⟩
  · have notExact : exact target rule = none := by
      rw [← Option.not_isSome_iff_eq_none, exact_isSome]
      exact same
    by_cases commutes : Commutes target rule
    · obtain ⟨p, found⟩ := Option.isSome_iff_exists.1 (commutativity_isSome_iff.2 commutes)
      exact .inr (.inl ⟨same, commutes, p, by simp [notExact, found]⟩)
    · have notCommutes : commutativity target rule = none := by
        rw [← Option.not_isSome_iff_eq_none, commutativity_isSome_iff]
        exact commutes
      have noChain : transitivity target rule = none := by
        rw [← Option.not_isSome_iff_eq_none]
        intro chained
        rcases exact_or_commutes_of_transitive chained with whole | reversed
        · exact same whole
        · exact commutes (.inl (by rw [reversed]; rfl))
      refine .inr (.inr ⟨same, commutes, ?_⟩)
      cases substituted : substitution target rule <;> simp [notExact, notCommutes, noChain]

-- The inference decides the union of its laws, reports the first of them that holds, and of a
-- replacement the first direction and in it the least offset.
theorem inference_reports (target rule : Sides) :
    let law := (infer? target rule).map Finding.law
    ((infer? target rule).isSome = true ↔
      target = rule ∨ Commutes target rule ∨ Replaceable target rule) ∧
    (law = some .exact ↔ target = rule) ∧
    (law = some .commutativity ↔ target ≠ rule ∧ Commutes target rule) ∧
    law ≠ some .transitivity ∧
    (law = some .substitution ↔
      target ≠ rule ∧ ¬ Commutes target rule ∧ Replaceable target rule) ∧
    ∀ p, infer? target rule = some ⟨.substitution, p⟩ ↔
      target ≠ rule ∧ ¬ Commutes target rule ∧ Located target rule p := by
  have replaceable : (substitution target rule).isSome = true ↔ Replaceable target rule :=
    substitution_isSome_iff
  rcases infer?_cases target rule with ⟨same, p, found⟩ | ⟨other, commutes, p, found⟩ |
    ⟨other, apart, found⟩
  · simp only [found]
    simp [same]
  · simp only [found]
    simp [other, commutes]
  · simp only [found]
    rw [← replaceable]
    cases substituted : substitution target rule <;>
      simp [other, apart, ← substitution_eq_some_iff, substituted]

end OperatorCalculus
