import Mathlib.Algebra.Order.BigOperators.Group.List
import Mathlib.Algebra.Order.Group.Nat
import OperatorCalculus.Text.Lowercase

-- Lower-casing a text and a piece of it. A capital sigma looks at its neighbours, and no other
-- character does. A piece becomes the same in every text exactly when each of its sigmas finds
-- in the piece all that decides about it.
namespace OperatorCalculus
namespace Text

-- Whether the nearest character that is not looked through is cased, if there is one.
def nearest? (t : Text) : Option Bool := (t.dropWhile isCaseIgnorable).head?.map isCased

theorem nextIsCased_eq (t : Text) : nextIsCased t = (nearest? t).getD false := by
  unfold nextIsCased nearest?
  cases t.dropWhile isCaseIgnorable with
  | nil => rfl
  | cons c rest => rfl

theorem nearest?_append (s t : Text) : nearest? (s ++ t) = (nearest? s).or (nearest? t) := by
  unfold nearest?
  induction s with
  | nil => rfl
  | cons c rest ih =>
    rw [List.cons_append, List.dropWhile_cons, List.dropWhile_cons]
    split
    · exact ih
    · rfl

def sigmaBetween (before after : Option Bool) : Text :=
  if before.getD false && !after.getD false then ['ς'] else ['σ']

theorem lowerAt_sigma (before after : Text) :
    lowerAt before 'Σ' after = sigmaBetween (nearest? before) (nearest? after) := by
  rw [sigmaBetween, ← nextIsCased_eq, ← nextIsCased_eq]
  rfl

theorem lowerAt_of_ne {c : Char} (other : c ≠ 'Σ') (before after before' after' : Text) :
    lowerAt before c after = lowerAt before' c after' := by
  unfold lowerAt
  rw [beq_false_of_ne other]
  rfl

structure Place where
  before : Text
  char : Char
  after : Text
deriving DecidableEq, Repr

namespace Place

variable {p : Place}

def lowered (p : Place) : Text := lowerAt p.before.reverse p.char p.after

def inside (s t : Text) (p : Place) : Place := ⟨s ++ p.before, p.char, p.after ++ t⟩

-- No text around it changes what becomes of a sigma here.
def Settled (p : Place) : Prop :=
  nearest? p.before.reverse = some false ∨ nearest? p.after = some true ∨
    nearest? p.before.reverse = some true ∧ nearest? p.after = some false

instance (p : Place) : Decidable p.Settled :=
  inferInstanceAs (Decidable (_ ∨ _ ∨ _ ∧ _))

theorem lowered_of_sigma (sigma : p.char = 'Σ') :
    p.lowered = sigmaBetween (nearest? p.before.reverse) (nearest? p.after) := by
  rw [lowered, sigma, lowerAt_sigma]

theorem lowered_inside_of_sigma (sigma : p.char = 'Σ') (s t : Text) : (p.inside s t).lowered =
    sigmaBetween ((nearest? p.before.reverse).or (nearest? s.reverse)) ((nearest? p.after).or (nearest? t)) := by
  rw [lowered_of_sigma (p := p.inside s t) sigma, inside, List.reverse_append, nearest?_append, nearest?_append]

theorem lowered_inside_of_ne (other : p.char ≠ 'Σ') (s t : Text) : (p.inside s t).lowered = p.lowered :=
  lowerAt_of_ne other _ _ _ _

theorem lowered_inside_of_settled (settled : p.char = 'Σ' → p.Settled) (s t : Text) :
    (p.inside s t).lowered = p.lowered := by
  by_cases sigma : p.char = 'Σ'
  · rw [lowered_inside_of_sigma sigma, lowered_of_sigma sigma]
    rcases settled sigma with uncasedBefore | casedAfter | ⟨casedBefore, uncasedAfter⟩
    · rw [uncasedBefore]
      rfl
    · rw [casedAfter]
      simp [sigmaBetween]
    · rw [casedBefore, uncasedAfter]
      rfl
  · exact lowered_inside_of_ne sigma s t

end Place

def places : Text → List Place
  | [] => []
  | c :: rest => ⟨[], c, rest⟩ :: (places rest).map (Place.inside [c] [])

def Settled (t : Text) : Prop := ∀ p ∈ places t, p.char = 'Σ' → p.Settled

instance (t : Text) : Decidable (Settled t) :=
  inferInstanceAs (Decidable (∀ p ∈ places t, p.char = 'Σ' → p.Settled))

theorem mem_places_iff {t : Text} {p : Place} : p ∈ places t ↔ t = p.before ++ p.char :: p.after := by
  induction t generalizing p with
  | nil => simp [places]
  | cons c rest ih =>
    obtain ⟨before, char, after⟩ := p
    rw [places, List.mem_cons, List.mem_map]
    cases before with
    | nil => simp [Place.inside, and_comm, eq_comm]
    | cons d before =>
      rw [List.cons_append, List.cons.injEq]
      constructor
      · rintro (first | ⟨p, there, same⟩)
        · cases first
        · cases same
          exact ⟨rfl, by simpa using ih.1 there⟩
      · rintro ⟨rfl, whole⟩
        exact .inr ⟨⟨before, char, after⟩, ih.2 whole, by simp [Place.inside]⟩

theorem settled_of_notMem {t : Text} (plain : 'Σ' ∉ t) : Settled t := by
  intro p member sigma
  rw [mem_places_iff.1 member, sigma] at plain
  exact absurd (List.mem_append_right _ List.mem_cons_self) plain

theorem places_append (s t : Text) :
    places (s ++ t) = (places s).map (Place.inside [] t) ++ (places t).map (Place.inside s []) := by
  induction s with
  | nil =>
    have same : Place.inside [] [] = (fun p => p) := by
      funext p
      simp [Place.inside]
    rw [same, List.map_id']
    rfl
  | cons c rest ih =>
    rw [List.cons_append, places, places, ih]
    simp [Place.inside, Function.comp_def]

theorem lowerFrom_eq (before t : Text) : lowerFrom before t =
    (places t).flatMap fun p => lowerAt (p.before.reverse ++ before) p.char p.after := by
  induction t generalizing before with
  | nil => rfl
  | cons c rest ih =>
    rw [lowerFrom, ih, places, List.flatMap_cons, List.flatMap_map]
    simp [Place.inside]

theorem lower_eq (t : Text) : lower t = (places t).flatMap Place.lowered := by
  rw [lower, lowerFrom_eq]
  simp only [List.append_nil]
  rfl

theorem lower_append (s t : Text) : lower (s ++ t) =
    (places s).flatMap (fun p => (p.inside [] t).lowered) ++
      (places t).flatMap fun p => (p.inside s []).lowered := by
  rw [lower_eq, places_append, List.flatMap_append, List.flatMap_map, List.flatMap_map]

theorem lower_between (s q t : Text) : ∃ first last,
    lower (s ++ (q ++ t)) = first ++ ((places q).flatMap (fun p => (p.inside s t).lowered) ++ last) := by
  rw [lower_append, places_append, List.flatMap_append, List.flatMap_map, List.flatMap_map]
  refine ⟨_, _, congrArg₂ _ rfl (congrArg₂ _ ?_ rfl)⟩
  simp [Place.inside]

theorem infix_lower_of_settled {q : Text} (settled : Settled q) {t : Text} (holds : q <:+: t) :
    lower q <:+: lower t := by
  obtain ⟨before, after, rfl⟩ := holds
  obtain ⟨first, last, place⟩ := lower_between before q after
  have same : (places q).flatMap (fun p => (p.inside before after).lowered) = lower q := by
    rw [lower_eq]
    exact List.flatMap_congr fun p member => p.lowered_inside_of_settled (settled p member) before after
  rw [same] at place
  rw [List.append_assoc, place]
  exact ⟨first, last, List.append_assoc _ _ _⟩

theorem count_between_lt {c : Char} {q s t : Text} {p : Place} (member : p ∈ places q) (sigma : p.char = 'Σ')
    (fewer : ∀ before after : Option Bool,
      (sigmaBetween (before.or (nearest? s.reverse)) (after.or (nearest? t))).count c ≤
        (sigmaBetween before after).count c)
    (less : (sigmaBetween ((nearest? p.before.reverse).or (nearest? s.reverse))
        ((nearest? p.after).or (nearest? t))).count c <
      (sigmaBetween (nearest? p.before.reverse) (nearest? p.after)).count c) :
    ((places q).flatMap fun p => (p.inside s t).lowered).count c < (lower q).count c := by
  rw [← Place.lowered_inside_of_sigma sigma, ← Place.lowered_of_sigma sigma] at less
  have each : ∀ p ∈ places q, (p.inside s t).lowered.count c ≤ p.lowered.count c := by
    intro p _
    by_cases sigma : p.char = 'Σ'
    · rw [Place.lowered_inside_of_sigma sigma, Place.lowered_of_sigma sigma]
      exact fewer _ _
    · rw [Place.lowered_inside_of_ne sigma]
  rw [lower_eq, List.count_flatMap, List.count_flatMap]
  exact List.sum_lt_sum _ _ each ⟨p, member, less⟩

theorem not_infix_of_count_lt {c : Char} {s t : Text} (less : t.count c < s.count c) : ¬ s <:+: t :=
  fun inside => Nat.not_le_of_lt less (inside.sublist.count_le c)

theorem nearest?_letter : nearest? ['a'] = some true := by decide +kernel

theorem lowered_letter (s t : Text) : ((places ['a']).flatMap fun p => (p.inside s t).lowered) = ['a'] := by
  have plain : ∀ p ∈ places ['a'], (p.inside s t).lowered = p.lowered :=
    fun p member => p.lowered_inside_of_ne (by revert p; decide) s t
  rw [List.flatMap_congr plain]
  decide +kernel

-- A letter before the piece makes a sigma final that has nothing before it, and a letter
-- behind it unmakes one that has nothing behind it.
theorem exists_not_infix_lower {q : Text} (unsettled : ¬ Settled q) :
    ∃ t, q <:+: t ∧ ¬ lower q <:+: lower t := by
  obtain ⟨p, member, sigma, open_⟩ : ∃ p ∈ places q, p.char = 'Σ' ∧ ¬ p.Settled := by
    simpa [Settled] using unsettled
  simp only [Place.Settled, not_or, not_and] at open_
  obtain ⟨notUncased, notCased, notBoth⟩ := open_
  rcases before : nearest? p.before.reverse with _ | _ | _
  -- A letter in front makes a sigma final that has nothing before it, and a letter behind
  -- unmakes one that has nothing behind it.
  · refine ⟨['a'] ++ q, (List.suffix_append _ _).isInfix, not_infix_of_count_lt (c := 'σ') ?_⟩
    rw [lower_append, lowered_letter]
    apply count_between_lt member sigma
    · rw [List.reverse_singleton, nearest?_letter]
      rintro (_ | _ | _) (_ | _ | _) <;> decide
    · rw [before, List.reverse_singleton, nearest?_letter]
      rcases after : nearest? p.after with _ | _ | _
      · decide
      · decide
      · exact absurd after notCased
  · exact absurd before notUncased
  · have after : nearest? p.after = none := by
      rcases after : nearest? p.after with _ | _ | _
      · rfl
      · exact absurd after (notBoth before)
      · exact absurd after notCased
    refine ⟨q ++ ['a'], (List.prefix_append _ _).isInfix, not_infix_of_count_lt (c := 'ς') ?_⟩
    rw [lower_append, lowered_letter, List.count_append]
    apply count_between_lt member sigma
    · rw [nearest?_letter]
      rintro (_ | _ | _) (_ | _ | _) <;> decide
    · rw [before, after, nearest?_letter]
      decide

theorem infix_lower_iff (q : Text) : (∀ t, q <:+: t → lower q <:+: lower t) ↔ Settled q := by
  constructor
  · intro found
    by_contra unsettled
    obtain ⟨t, holds, missed⟩ := exists_not_infix_lower unsettled
    exact missed (found t holds)
  · exact fun settled t => infix_lower_of_settled settled

end Text
end OperatorCalculus
