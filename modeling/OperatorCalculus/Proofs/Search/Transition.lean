import OperatorCalculus.Proofs.Search.Calls
import OperatorCalculus.Proofs.Search.Sequential

-- All that one batch can make of a search: nothing, a halt, or the plain search of the
-- next rules. Sizes that take no rule or count from the end, replies out of order, fan-outs
-- that fail and tokens cancelled at any moment are all in these cases; no later proof looks
-- at a batch again.
namespace OperatorCalculus

namespace Slice

theorem take_add_length_upTo {α : Type} (start : Nat) (stop : Int) (xs : List α) :
    xs.take (start + (upTo start stop xs).length) = xs.take start ++ upTo start stop xs := by
  have bound := place_le xs.length stop
  rw [length_upTo]
  simp only [upTo]
  by_cases short : place xs.length stop ≤ start
  · rw [Nat.sub_eq_zero_of_le short, List.drop_eq_nil_of_le (by simp; omega)]
    simp
  · have split : start + (place xs.length stop - start) = place xs.length stop := by omega
    have front : (xs.take (place xs.length stop)).take start = xs.take start := by
      rw [List.take_take, Nat.min_eq_left (by omega)]
    rw [split, ← front, List.take_append_drop]

end Slice

namespace PreparedRule

def InOrder (rules : List PreparedRule) : Prop := rules.Pairwise fun a b => a.index < b.index

theorem all_inOrder (rules : List Rule) : InOrder (all rules) := by
  rw [InOrder, List.pairwise_iff_getElem]
  intro i j hi hj before
  simpa [all, of] using before

theorem InOrder.upTo {rules : List PreparedRule} (ordered : InOrder rules) (start : Nat)
    (stop : Int) : InOrder (Slice.upTo start stop rules) :=
  ordered.sublist ((List.drop_sublist _ _).trans (List.take_sublist _ _))

end PreparedRule

-- What comes back are the checks in some order. The fan-out may also fail, and it may
-- cancel the token.
def FanOut.Permutes (f : FanOut) : Prop :=
  ∀ number checks answer, (f number checks).checks = .ok answer → answer.Perm checks

def Status.verdict : Status → Option Bool
  | .matched => some true
  | .exhausted | .empty => some false
  | .idle | .running | .cancelled | .loading => none

namespace Session

theorem inRuleOrder_of_perm {rules : List PreparedRule} {target : Sides} {checks : List Check}
    (ordered : PreparedRule.InOrder rules) (shuffled : checks.Perm (rules.map (Check.of target))) :
    inRuleOrder checks = rules.map (Check.of target) := by
  have increasing : (rules.map (Check.of target)).Pairwise fun a b => a.index < b.index :=
    List.pairwise_map.2 ordered
  have sorted : (inRuleOrder checks).Pairwise
      fun a b => Decidable.decide (a.index ≤ b.index) = true := by
    refine List.pairwise_mergeSort ?_ ?_ checks
    · intro a b c ab bc
      simp only [decide_eq_true_eq] at ab bc ⊢
      omega
    · intro a b
      simp only [Bool.or_eq_true, decide_eq_true_eq]
      omega
  have both : (inRuleOrder checks).Perm (rules.map (Check.of target)) :=
    (List.mergeSort_perm _ _).trans shuffled
  refine both.eq_of_pairwise ?_ sorted (increasing.imp (by simp; omega))
  intro a b inLeft inRight ab ba
  simp only [decide_eq_true_eq] at ab ba
  -- Checks with one place in the order of the rules are the same check.
  have place : ∀ x ∈ rules.map (Check.of target), ∀ y ∈ rules.map (Check.of target),
      x.index = y.index → x = y := by
    intro x inX y inY same
    obtain ⟨i, hi, rfl⟩ := List.mem_iff_getElem.1 inX
    obtain ⟨j, hj, rfl⟩ := List.mem_iff_getElem.1 inY
    rcases Nat.lt_trichotomy i j with before | rfl | after
    · have := List.pairwise_iff_getElem.1 increasing i j hi hj before
      omega
    · rfl
    · have := List.pairwise_iff_getElem.1 increasing j i hj hi after
      omega
  exact place a (both.mem_iff.1 inLeft) b inRight (by omega)

end Session

namespace Search

open OperatorCalculus.Sequential

def stepsOf (s : Search) (batch : List PreparedRule) : List ProofStep :=
  Sequential.search s.target (s.steps.length + 1) batch

def after (s : Search) (batch : List PreparedRule) : Search :=
  Session.joined s batch.length (s.stepsOf batch)

-- The batch is the piece of the rules that begins at the cursor.
def IsNext (rules : List PreparedRule) (s : Search) (batch : List PreparedRule) : Prop :=
  rules.take (s.cursor + batch.length) = rules.take s.cursor ++ batch

-- The token is the one that the caller holds afterwards.
inductive Transition (rules : List PreparedRule) (token : Bool) (s : Search) : Search → Prop where
  | stay : Transition rules token s s
  | cancel (live : s.halted = false) (asked : token = true) :
      Transition rules token s (s.halt .cancelled none .cancelled)
  | spend (live : s.halted = false) (all : rules.length ≤ s.cursor) :
      Transition rules token s (s.halt .exhausted (some false) .noRuleMatched)
  | find {batch : List PreparedRule} (live : s.halted = false) (next : IsNext rules s batch)
      (found : Finds (s.stepsOf batch)) (id : Text) :
      Transition rules token s ((s.after batch).halt .matched (some true) (.matchedRule id))
  | finish {batch : List PreparedRule} (live : s.halted = false) (next : IsNext rules s batch)
      (unfound : ¬ Finds (s.stepsOf batch)) (all : rules.length ≤ s.cursor + batch.length) :
      Transition rules token s ((s.after batch).halt .exhausted (some false) .noRuleMatched)
  | proceed {batch : List PreparedRule} (live : s.halted = false) (next : IsNext rules s batch)
      (unfound : ¬ Finds (s.stepsOf batch)) (more : s.cursor + batch.length < rules.length) :
      Transition rules token s (s.after batch)

theorem Transition.mono {rules : List PreparedRule} {token later : Bool} {s t : Search}
    (transition : Transition rules token s t) (kept : token = true → later = true) :
    Transition rules later s t := by
  cases transition with
  | stay => exact .stay
  | cancel live asked => exact .cancel live (kept asked)
  | spend live all => exact .spend live all
  | find live next found id => exact .find live next found id
  | finish live next unfound all => exact .finish live next unfound all
  | proceed live next unfound more => exact .proceed live next unfound more

end Search

namespace Session

open OperatorCalculus.Sequential

variable {rules : List PreparedRule} {o : SearchOptions} {s : Session}

theorem added_eq_stepsOf (ordered : PreparedRule.InOrder rules) {checks : List Check}
    (shuffled : checks.Perm ((chosen o rules s.search).map (Check.of s.search.target))) :
    added s.search checks = s.search.stepsOf (chosen o rules s.search) := by
  rw [added, inRuleOrder_of_perm (ordered.upTo _ _) shuffled, numbered_throughMatch]
  rfl

theorem chosen_isNext (o : SearchOptions) (rules : List PreparedRule) (s : Search) :
    s.IsNext rules (chosen o rules s) :=
  Slice.take_add_length_upTo _ _ _

theorem batch_transition (ordered : PreparedRule.InOrder rules) (permutes : o.fanOut.Permutes)
    (s : Session) : Search.Transition rules (batch o rules s).session.cancelled s.search
      (batch o rules s).session.search := by
  have turn := batch_turn o rules s
  generalize batch o rules s = t at turn ⊢
  cases turn with
  | halted stopped => exact .stay
  | refused live asked => exact .cancel live (Bool.and_eq_true_iff.1 asked).2
  | spent live free complete => exact .spend live ((Search.complete_iff _ _).1 complete)
  | failed live free more fails => exact .stay
  | discarded live free more answer asked => exact .cancel live (Bool.and_eq_true_iff.1 asked).2
  | @settled live free more checks answer kept =>
    have steps := added_eq_stepsOf ordered (permutes _ _ _ answer)
    have next := chosen_isNext o rules s.search
    obtain ⟨_, _, outcome⟩ := settle_cases o rules.length (chosen o rules s.search).length
      checks (replied o rules s)
    have search : (replied o rules s).search = s.search := rfl
    rw [search, steps] at outcome
    rcases outcome with ⟨step, hit, same⟩ | ⟨none, complete, same⟩ | ⟨none, complete, same⟩
    · rw [same]
      exact .find live next ((find?_isSome_iff_finds _).1 (by rw [hit]; rfl)) _
    · have unfound : ¬ Finds (s.search.stepsOf (chosen o rules s.search)) := by
        rw [← find?_isSome_iff_finds, none]
        exact Bool.false_ne_true
      rw [same]
      exact .finish live next unfound ((Search.complete_iff _ _).1 complete)
    · have unfound : ¬ Finds (s.search.stepsOf (chosen o rules s.search)) := by
        rw [← find?_isSome_iff_finds, none]
        exact Bool.false_ne_true
      have more : ¬ rules.length ≤ s.search.cursor + (chosen o rules s.search).length := by
        intro all
        rw [(Search.complete_iff _ _).2 all] at complete
        cases complete
      rw [same]
      exact .proceed live next unfound (by omega)

theorem call_transition (ordered : PreparedRule.InOrder rules) (permutes : o.fanOut.Permutes)
    (s : Session) : Search.Transition rules (call o rules s).session.cancelled s.search
      (call o rules s).session.search := by
  rw [call_search]
  exact (batch_transition ordered permutes s).mono (call_asked o rules s)

end Session

namespace Search

open OperatorCalculus.Sequential

variable {rules batch : List PreparedRule} {token : Bool} {s t : Search}

theorem Transition.target (transition : Transition rules token s t) : t.target = s.target := by
  cases transition <;> rfl

-- What the state says of the search at every moment: its steps are those of the plain
-- search of the rules behind the cursor, whatever has been cancelled or has failed.
structure Follows (rules : List PreparedRule) (s : Search) : Prop where
  inside : s.cursor ≤ rules.length
  steps : s.steps = Sequential.search s.target 1 (rules.take s.cursor)
  found : s.status = .matched ↔ Finds s.steps
  spent : s.status = .exhausted → s.cursor = rules.length
  verdict : s.verdict = s.status.verdict

theorem Follows.unfound (follows : Follows rules s) (live : s.halted = false) : ¬ Finds s.steps := by
  intro found
  rw [halted, follows.found.2 found] at live
  cases live

theorem Follows.joined_steps (follows : Follows rules s) (live : s.halted = false)
    (next : IsNext rules s batch) : s.steps ++ s.stepsOf batch =
      Sequential.search s.target 1 (rules.take (s.cursor + batch.length)) := by
  have unfound := follows.unfound live
  rw [follows.steps] at unfound
  have count : s.steps.length + 1 = 1 + 2 * (rules.take s.cursor).length := by
    rw [follows.steps, length_of_unfound unfound]
    omega
  rw [next, search_of_unfound _ unfound, stepsOf, count, ← follows.steps]

theorem Follows.next_inside (follows : Follows rules s) (next : IsNext rules s batch) :
    s.cursor + batch.length ≤ rules.length := by
  have bound := follows.inside
  have size := congrArg List.length next
  simp only [List.length_append, List.length_take] at size
  omega

theorem Follows.transition (follows : Follows rules s) (transition : Transition rules token s t) :
    Follows rules t := by
  have inside := follows.inside
  cases transition with
  | stay => exact follows
  | cancel live asked =>
    have unfound := follows.unfound live
    exact ⟨inside, follows.steps, ⟨nofun, fun found => absurd found unfound⟩, nofun, rfl⟩
  | spend live all =>
    have unfound := follows.unfound live
    exact ⟨inside, follows.steps, ⟨nofun, fun found => absurd found unfound⟩,
      fun _ => Nat.le_antisymm inside all, rfl⟩
  | find live next found id =>
    exact ⟨follows.next_inside next, follows.joined_steps live next,
      ⟨fun _ => finds_append.2 (.inr found), fun _ => rfl⟩, nofun, rfl⟩
  | @finish batch live next unfound all =>
    have none : ¬ Finds (s.steps ++ s.stepsOf batch) := fun found =>
      (finds_append.1 found).elim (follows.unfound live) unfound
    exact ⟨follows.next_inside next, follows.joined_steps live next,
      ⟨nofun, fun found => absurd found none⟩,
      fun _ => Nat.le_antisymm (follows.next_inside next) all, rfl⟩
  | @proceed batch live next unfound more =>
    have none : ¬ Finds (s.steps ++ s.stepsOf batch) := fun found =>
      (finds_append.1 found).elim (follows.unfound live) unfound
    have still : s.status ≠ .matched := fun hit => follows.unfound live (follows.found.1 hit)
    have open_ : s.status ≠ .exhausted := by
      intro spent
      rw [halted, spent] at live
      cases live
    exact ⟨follows.next_inside next, follows.joined_steps live next,
      ⟨fun hit => absurd hit still, fun found => absurd found none⟩,
      fun spent => absurd spent open_, follows.verdict⟩

end Search
end OperatorCalculus
