import OperatorCalculus.Search.Drive

-- The plain search that the batches stand for: one rule after the other, as written
-- and then reversed, and nothing after the first match. It knows no batch, no feed and
-- no fan-out; a run of any shape is measured against it.
namespace OperatorCalculus

def Rule.between (left right : Text) : Rule :=
  ⟨[], [], Rule.axiomType, [], [], left, right, none, none⟩

namespace Sequential

def checked (target : Sides) (number : Nat) (rule : Rule) (direction : Direction)
    (forms : NormalizedPair) : ProofStep :=
  { Check.inDirection target rule direction forms with number := number }

def search (target : Sides) (number : Nat) : List PreparedRule → List ProofStep
  | [] => []
  | p :: rest =>
    let forward := checked target number p.rule .leftToRight p.forward
    let reverse := checked target (number + 1) p.rule .rightToLeft p.reverse
    if forward.isMatch then [forward]
    else if reverse.isMatch then [forward, reverse]
    else forward :: reverse :: search target (number + 2) rest

def Finds (steps : List ProofStep) : Prop := ∃ step ∈ steps, step.isMatch = true

instance (steps : List ProofStep) : Decidable (Finds steps) :=
  inferInstanceAs (Decidable (∃ step ∈ steps, step.isMatch = true))

def target (start goal : Text) : Sides :=
  ⟨(Expression.canonicalPair start goal).1, (Expression.canonicalPair start goal).2⟩

def steps (rules : List Rule) (start goal : Text) : List ProofStep :=
  search (target start goal) 1 (PreparedRule.all rules)

variable {target : Sides} {rules earlier later : List PreparedRule} {number : Nat}

theorem checked_isMatch (rule : Rule) (direction : Direction) (forms : NormalizedPair) :
    (checked target number rule direction forms).isMatch =
      (Check.inDirection target rule direction forms).isMatch := rfl

theorem checked_rule (rule : Rule) (direction : Direction) (forms : NormalizedPair) :
    (checked target number rule direction forms).rule = rule := by
  have inner : (Check.inDirection target rule direction forms).rule = rule := by
    simp only [Check.inDirection]
    split <;> rfl
  exact inner

-- All that one rule can contribute, whatever follows it. Every induction over a search
-- goes by these cases.
theorem search_cases (target : Sides) (p : PreparedRule) (number : Nat) :
    let forward := checked target number p.rule .leftToRight p.forward
    let reverse := checked target (number + 1) p.rule .rightToLeft p.reverse
    (forward.isMatch = true ∧ ∀ rest, search target number (p :: rest) = [forward]) ∨
    (forward.isMatch = false ∧ reverse.isMatch = true ∧
      ∀ rest, search target number (p :: rest) = [forward, reverse]) ∨
    (forward.isMatch = false ∧ reverse.isMatch = false ∧
      ∀ rest, search target number (p :: rest) =
        forward :: reverse :: search target (number + 2) rest) := by
  intro forward reverse
  cases first : forward.isMatch with
  | true =>
    refine .inl ⟨rfl, fun rest => ?_⟩
    simp only [search]
    rw [if_pos first]
  | false =>
    have quiet : ¬ forward.isMatch = true := by simp [first]
    cases second : reverse.isMatch with
    | true =>
      refine .inr (.inl ⟨rfl, rfl, fun rest => ?_⟩)
      simp only [search]
      rw [if_neg quiet, if_pos second]
    | false =>
      have silent : ¬ reverse.isMatch = true := by simp [second]
      refine .inr (.inr ⟨rfl, rfl, fun rest => ?_⟩)
      simp only [search]
      rw [if_neg quiet, if_neg silent]

theorem find?_isSome_iff_finds (steps : List ProofStep) :
    (steps.find? ProofStep.isMatch).isSome = true ↔ Finds steps := by
  simp [Finds, List.find?_isSome]

theorem finds_cons {step : ProofStep} {rest : List ProofStep} :
    Finds (step :: rest) ↔ step.isMatch = true ∨ Finds rest := by
  simp [Finds]

theorem finds_append {before after : List ProofStep} :
    Finds (before ++ after) ↔ Finds before ∨ Finds after := by
  simp [Finds, or_and_right, exists_or]

theorem search_append (earlier later : List PreparedRule) (number : Nat) :
    search target number (earlier ++ later) =
      if Finds (search target number earlier) then search target number earlier
      else search target number earlier ++
        search target (number + 2 * earlier.length) later := by
  induction earlier generalizing number with
  | nil => simp [search, Finds]
  | cons p rest ih =>
    rcases search_cases target p number with
      ⟨hit, same⟩ | ⟨quiet, hit, same⟩ | ⟨quiet, silent, same⟩
    · simp only [List.cons_append, same, finds_cons, hit, true_or, if_true]
    · simp only [List.cons_append, same, finds_cons, hit, true_or, or_true, if_true]
    · have places : number + 2 * (p :: rest).length = number + 2 + 2 * rest.length := by
        simp only [List.length_cons]
        omega
      simp only [List.cons_append, same, ih, finds_cons, quiet, silent, places,
        Bool.false_eq_true, false_or]
      split <;> rfl

theorem search_of_found (later : List PreparedRule) (found : Finds (search target number earlier)) :
    search target number (earlier ++ later) = search target number earlier := by
  rw [search_append, if_pos found]

theorem search_of_unfound (later : List PreparedRule)
    (unfound : ¬ Finds (search target number earlier)) :
    search target number (earlier ++ later) = search target number earlier ++
      search target (number + 2 * earlier.length) later := by
  rw [search_append, if_neg unfound]

theorem length_of_unfound (unfound : ¬ Finds (search target number rules)) :
    (search target number rules).length = 2 * rules.length := by
  induction rules generalizing number with
  | nil => rfl
  | cons p rest ih =>
    rcases search_cases target p number with
      ⟨hit, same⟩ | ⟨quiet, hit, same⟩ | ⟨quiet, silent, same⟩
    · exact absurd (by rw [same]; exact ⟨_, by simp, hit⟩) unfound
    · exact absurd (by rw [same]; exact ⟨_, by simp, hit⟩) unfound
    · rw [same, finds_cons, finds_cons] at unfound
      have deeper : ¬ Finds (search target (number + 2) rest) := fun found =>
        unfound (.inr (.inr found))
      simp only [same, List.length_cons, ih deeper]
      omega

theorem found_is_last (found : Finds (search target number rules)) :
    ∃ before last, search target number rules = before ++ [last] ∧ last.isMatch = true ∧
      ∀ step ∈ before, step.isMatch = false := by
  induction rules generalizing number with
  | nil => simp [search, Finds] at found
  | cons p rest ih =>
    rcases search_cases target p number with
      ⟨hit, same⟩ | ⟨quiet, hit, same⟩ | ⟨quiet, silent, same⟩
    · exact ⟨[], _, by rw [same]; rfl, hit, by simp⟩
    · exact ⟨[checked target number p.rule .leftToRight p.forward], _, by rw [same]; rfl, hit,
        by simpa using quiet⟩
    · rw [same, finds_cons, finds_cons, quiet, silent] at found
      obtain ⟨before, last, deeper, hit, none⟩ := ih (by simpa using found)
      refine ⟨checked target number p.rule .leftToRight p.forward ::
        checked target (number + 1) p.rule .rightToLeft p.reverse :: before, last, ?_, hit, ?_⟩
      · rw [same, deeper]
        rfl
      · intro step member
        simp only [List.mem_cons] at member
        rcases member with rfl | rfl | member
        · exact quiet
        · exact silent
        · exact none step member

theorem nothing_after_match {before after : List ProofStep} {step : ProofStep}
    (same : search target number rules = before ++ step :: after) (hit : step.isMatch = true) :
    after = [] := by
  have member : step ∈ search target number rules := by simp [same]
  obtain ⟨earlier, last, whole, _, none⟩ := found_is_last ⟨step, member, hit⟩
  rcases List.eq_nil_or_concat after with empty | ⟨between, final, rfl⟩
  · exact empty
  · have split : before ++ step :: between ++ [final] = earlier ++ [last] := by
      rw [← whole, same]
      simp
    have quiet := none step (by rw [← List.append_inj_left' split rfl]; simp)
    rw [hit] at quiet
    cases quiet

-- A step of a search is a check of one of its rules, and its number tells which: there
-- are two numbers for each rule.
theorem place_of_mem {step : ProofStep} (member : step ∈ search target number rules) :
    ∃ i p, rules[i]? = some p ∧
      (step = checked target (number + 2 * i) p.rule .leftToRight p.forward ∨
        step = checked target (number + 2 * i + 1) p.rule .rightToLeft p.reverse) := by
  induction rules generalizing number with
  | nil => simp [search] at member
  | cons p rest ih =>
    rcases search_cases target p number with
      ⟨_, same⟩ | ⟨_, _, same⟩ | ⟨_, _, same⟩ <;>
    rw [same] at member <;> simp only [List.mem_cons, List.not_mem_nil, or_false] at member
    · exact ⟨0, p, rfl, .inl member⟩
    · exact ⟨0, p, rfl, member⟩
    · rcases member with member | member | member
      · exact ⟨0, p, rfl, .inl member⟩
      · exact ⟨0, p, rfl, .inr member⟩
      · obtain ⟨i, q, place, shown⟩ := ih member
        have later : number + 2 + 2 * i = number + 2 * (i + 1) := by omega
        rw [later] at shown
        exact ⟨i + 1, q, place, shown⟩

theorem mem_search {step : ProofStep} (member : step ∈ search target number rules) :
    ∃ p ∈ rules, ∃ n, step = checked target n p.rule .leftToRight p.forward ∨
      step = checked target n p.rule .rightToLeft p.reverse := by
  obtain ⟨i, p, place, shown⟩ := place_of_mem member
  refine ⟨p, List.mem_of_getElem? place, ?_⟩
  cases shown with
  | inl forward => exact ⟨_, .inl forward⟩
  | inr reverse => exact ⟨_, .inr reverse⟩

theorem numbers_search (target : Sides) (number : Nat) (rules : List PreparedRule) :
    (search target number rules).map ProofStep.number =
      List.range' number (search target number rules).length := by
  induction rules generalizing number with
  | nil => rfl
  | cons p rest ih =>
    rcases search_cases target p number with
      ⟨_, same⟩ | ⟨_, _, same⟩ | ⟨_, _, same⟩ <;> rw [same]
    · rfl
    · rfl
    · simp only [List.map_cons, List.length_cons, List.range'_succ, ih]
      rfl

theorem match_by (number : Nat) {k : Nat} {p : PreparedRule} (place : rules[k]? = some p)
    (hit : (Check.inDirection target p.rule .leftToRight p.forward).isMatch = true ∨
      (Check.inDirection target p.rule .rightToLeft p.reverse).isMatch = true) :
    ∃ step ∈ search target number rules, step.isMatch = true ∧ step.number ≤ number + 2 * k +
      if (Check.inDirection target p.rule .leftToRight p.forward).isMatch then 0 else 1 := by
  induction rules generalizing number k with
  | nil => cases place
  | cons q rest ih =>
    rcases search_cases target q number with
      ⟨first, same⟩ | ⟨quiet, first, same⟩ | ⟨quiet, silent, same⟩
    · rw [same]
      exact ⟨_, List.mem_singleton_self _, first, by simp only [checked]; omega⟩
    · rw [same]
      refine ⟨_, List.mem_cons_of_mem _ (List.mem_singleton_self _), first, ?_⟩
      rw [checked_isMatch] at quiet
      cases k with
      | zero =>
        cases place
        simp [quiet, checked]
      | succ k =>
        simp only [checked]
        omega
    · rw [same]
      cases k with
      | zero =>
        cases place
        rw [checked_isMatch] at quiet silent
        simp [quiet, silent] at hit
      | succ k =>
        obtain ⟨step, member, found, bound⟩ := ih (number + 2) place
        exact ⟨step, by simp [member], found, by omega⟩

theorem finds_of_match {p : PreparedRule} (member : p ∈ rules)
    (hit : (Check.inDirection target p.rule .leftToRight p.forward).isMatch = true ∨
      (Check.inDirection target p.rule .rightToLeft p.reverse).isMatch = true) :
    Finds (search target number rules) := by
  obtain ⟨k, place⟩ := List.mem_iff_getElem?.1 member
  obtain ⟨step, inSearch, found, _⟩ := match_by number place hit
  exact ⟨step, inSearch, found⟩

theorem find?_of_match {step : ProofStep} (member : step ∈ search target number rules)
    (hit : step.isMatch = true) :
    (search target number rules).find? ProofStep.isMatch = some step := by
  obtain ⟨before, last, same, found, none⟩ := found_is_last ⟨step, member, hit⟩
  have isLast : step = last := by
    rw [same] at member
    rcases List.mem_append.1 member with earlier | final
    · rw [none step earlier] at hit
      cases hit
    · exact List.mem_singleton.1 final
  rw [same, isLast, List.find?_append, List.find?_eq_none.2 (by simpa using none)]
  simp [found]

end Sequential

namespace Session

theorem numbered_throughMatch (target : Sides) (rules : List PreparedRule) (number : Nat) :
    numberedFrom number (throughMatch ((rules.map (Check.of target)).flatMap Check.steps)) =
      Sequential.search target number rules := by
  induction rules generalizing number with
  | nil => rfl
  | cons p rest ih =>
    simp only [List.map_cons, List.flatMap_cons, Check.of, List.cons_append, List.nil_append,
      throughMatch]
    rcases Sequential.search_cases target p number with
      ⟨hit, same⟩ | ⟨quiet, hit, same⟩ | ⟨quiet, silent, same⟩
    · rw [Sequential.checked_isMatch] at hit
      rw [same, if_pos hit]
      rfl
    · rw [Sequential.checked_isMatch] at quiet hit
      rw [same, quiet, hit]
      rfl
    · rw [Sequential.checked_isMatch] at quiet silent
      rw [same, ← ih, quiet, silent]
      rfl

end Session
end OperatorCalculus
