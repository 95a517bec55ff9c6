import Mathlib.Algebra.GroupWithZero.Nat
import OperatorCalculus.Proofs.Search.Act
import OperatorCalculus.Proofs.Search.Schedule

-- The parts of a search agree at every moment of its life. They agree in a fresh search, and
-- every transition adds a whole batch to all of them or to none.
namespace OperatorCalculus

namespace BatchRecord

-- The batches lie side by side on the rules, from one place to another. A batch without
-- rules ends where it begins.
def Tiles : Nat → List BatchRecord → Nat → Prop
  | covered, [], cursor => covered = cursor
  | covered, r :: later, cursor =>
    r.first = covered + 1 ∧ covered ≤ r.last ∧ Tiles r.last later cursor

theorem Tiles.append {history : List BatchRecord} {covered cursor : Nat} {r : BatchRecord}
    (tiles : Tiles covered history cursor) (first : r.first = cursor + 1)
    (last : cursor ≤ r.last) : Tiles covered (history ++ [r]) r.last := by
  induction history generalizing covered with
  | nil =>
    cases tiles
    exact ⟨first, last, rfl⟩
  | cons q later ih => exact ⟨tiles.1, tiles.2.1, ih tiles.2.2⟩

end BatchRecord

namespace Search

open OperatorCalculus.Sequential

def Fresh (s : Search) : Prop :=
  (∃ start goal, s = begin start goal) ∨ ∃ start goal target, s = idle start goal target

structure Entries (s : Search) : Prop where
  batches : s.batches = s.history.length
  entries : s.history.map BatchRecord.number = List.range' 1 s.history.length
  tiles : BatchRecord.Tiles 0 s.history s.cursor
  total : (s.history.map BatchRecord.steps).sum = s.steps.length
  names : s.history.filterMap BatchRecord.matched =
    ((s.steps.find? ProofStep.isMatch).map ProofStep.name).toList

-- What all the parts of a search say of each other and of the rules.
structure Coherent (rules : List Rule) (s : Search) : Prop extends Entries s where
  numbers : s.steps.map ProofStep.number = List.range' 1 s.steps.length
  inside : s.cursor ≤ rules.length
  last : ∀ before step after, s.steps = before ++ step :: after → step.isMatch = true → after = []
  found : s.status = .matched ↔ EndsInMatch s.steps
  pairs : s.status ≠ .matched → s.steps.length = 2 * s.cursor
  place : s.status = .matched → ∃ earlier batch before step i, s.history = earlier ++ [batch] ∧
    s.steps = before ++ [step] ∧ rules[i]? = some step.rule ∧
    (step.number = 2 * i + 1 ∨ step.number = 2 * i + 2) ∧
    batch.first ≤ i + 1 ∧ i + 1 ≤ batch.last
  verdict : s.verdict = s.status.verdict

-- The search goes on from where it was and takes nothing back; once halted it stays.
structure Extends (s t : Search) : Prop where
  start : t.start = s.start
  goal : t.goal = s.goal
  target : t.target = s.target
  steps : s.steps <+: t.steps
  history : s.history <+: t.history
  cursor : s.cursor ≤ t.cursor
  frozen : s.halted = true → t = s

theorem Extends.refl (s : Search) : Extends s s :=
  ⟨rfl, rfl, rfl, List.prefix_refl _, List.prefix_refl _, Nat.le_refl _, fun _ => rfl⟩

theorem Extends.trans {s t u : Search} (first : Extends s t) (second : Extends t u) :
    Extends s u where
  start := second.start.trans first.start
  goal := second.goal.trans first.goal
  target := second.target.trans first.target
  steps := first.steps.trans second.steps
  history := first.history.trans second.history
  cursor := Nat.le_trans first.cursor second.cursor
  frozen stopped := by
    have same := first.frozen stopped
    rw [same] at second
    exact second.frozen stopped

variable {rules : List PreparedRule} {token : Bool} {s t : Search}

theorem Transition.extends (transition : Transition rules token s t) : Extends s t := by
  have moves : ∀ {t : Search}, s.halted = false → s.halted = true → t = s := by
    intro t live stopped
    rw [live] at stopped
    cases stopped
  have steps : ∀ batch, s.steps <+: (s.after batch).steps := fun _ => List.prefix_append _ _
  have history : ∀ batch, s.history <+: (s.after batch).history := fun _ => List.prefix_append _ _
  have cursor : ∀ batch, s.cursor ≤ (s.after batch).cursor := fun _ => Nat.le_add_right _ _
  cases transition with
  | stay => exact .refl s
  | cancel live asked => exact { Extends.refl s with frozen := moves live }
  | spend live all => exact { Extends.refl s with frozen := moves live }
  | find live next found id =>
    exact ⟨rfl, rfl, rfl, steps _, history _, cursor _, moves live⟩
  | finish live next unfound all =>
    exact ⟨rfl, rfl, rfl, steps _, history _, cursor _, moves live⟩
  | proceed live next unfound more =>
    exact ⟨rfl, rfl, rfl, steps _, history _, cursor _, moves live⟩

structure Recorded (rules : List PreparedRule) (s : Search) : Prop extends Entries s where
  place : s.status = .matched → ∃ earlier batch before, s.history = earlier ++ [batch] ∧
    batch.first = before + 1 ∧ before ≤ batch.last ∧ batch.last = s.cursor ∧
    ¬ Finds (Sequential.search s.target 1 (rules.take before))

theorem Fresh.untouched (fresh : s.Fresh) :
    s.steps = [] ∧ s.cursor = 0 ∧ s.batches = 0 ∧ s.history = [] ∧
      s.status ≠ .matched ∧ s.status ≠ .exhausted ∧ s.verdict = s.status.verdict := by
  rcases fresh with ⟨start, goal, rfl⟩ | ⟨start, goal, target, rfl⟩
  · unfold begin
    simp only
    split
    · exact ⟨rfl, rfl, rfl, rfl, nofun, nofun, rfl⟩
    · split <;> exact ⟨rfl, rfl, rfl, rfl, nofun, nofun, rfl⟩
  · exact ⟨rfl, rfl, rfl, rfl, nofun, nofun, rfl⟩

theorem Fresh.follows (fresh : s.Fresh) : s.Follows rules := by
  obtain ⟨steps, cursor, _, _, unmatched, open_, verdict⟩ := fresh.untouched
  refine ⟨by omega, by rw [steps, cursor]; rfl, ?_, fun spent => absurd spent open_, verdict⟩
  rw [steps]
  simp [Finds, unmatched]

theorem Fresh.recorded (fresh : s.Fresh) : s.Recorded rules := by
  obtain ⟨steps, cursor, batches, history, unmatched, _, _⟩ := fresh.untouched
  refine ⟨⟨?_, ?_, ?_, ?_, ?_⟩, fun hit => absurd hit unmatched⟩
  · rw [batches, history]
    rfl
  · rw [history]
    rfl
  · rw [history, cursor]
    rfl
  · rw [history, steps]
    rfl
  · rw [history, steps]
    rfl

theorem Entries.after (entries : s.Entries) (unfound : ¬ Finds s.steps)
    (batch : List PreparedRule) : (s.after batch).Entries := by
  have silent : s.steps.find? ProofStep.isMatch = none := by
    rw [← find?_isSome_iff_finds, Bool.not_eq_true, Option.isSome_eq_false_iff,
      Option.isNone_iff_eq_none] at unfound
    exact unfound
  have nameless : s.history.filterMap BatchRecord.matched = [] := by
    rw [entries.names, silent]
    rfl
  refine ⟨?_, ?_, ?_, ?_, ?_⟩
  · simp [Search.after, Session.joined, entries.batches]
  · simp [Search.after, Session.joined, entries.entries, entries.batches, List.range'_concat,
      Nat.add_comm]
  · exact entries.tiles.append rfl (Nat.le_add_right _ _)
  · simp [Search.after, Session.joined, entries.total]
  · simp only [Search.after, Session.joined, List.filterMap_append, nameless, List.find?_append,
      silent, Option.none_or, List.nil_append]
    cases (s.stepsOf batch).find? ProofStep.isMatch <;> rfl

theorem Recorded.transition (recorded : Recorded rules s) (follows : Follows rules s)
    (transition : Transition rules token s t) : Recorded rules t := by
  have entries := recorded.toEntries
  cases transition with
  | stay => exact recorded
  | cancel live asked => exact ⟨⟨entries.1, entries.2, entries.3, entries.4, entries.5⟩, nofun⟩
  | spend live all => exact ⟨⟨entries.1, entries.2, entries.3, entries.4, entries.5⟩, nofun⟩
  | @find batch live next found id =>
    have joined := entries.after (follows.unfound live) batch
    have behind := follows.unfound live
    rw [follows.steps] at behind
    exact ⟨⟨joined.1, joined.2, joined.3, joined.4, joined.5⟩,
      fun _ => ⟨s.history, _, s.cursor, rfl, rfl, Nat.le_add_right _ _, rfl, behind⟩⟩
  | @finish batch live next unfound all =>
    have joined := entries.after (follows.unfound live) batch
    exact ⟨⟨joined.1, joined.2, joined.3, joined.4, joined.5⟩, nofun⟩
  | @proceed batch live next unfound more =>
    refine ⟨entries.after (follows.unfound live) batch, fun hit => ?_⟩
    exact absurd (follows.found.1 hit) (follows.unfound live)

theorem Recorded.place_of_match {rules : List Rule} (recorded : Recorded (PreparedRule.all rules) s)
    (follows : Follows (PreparedRule.all rules) s) (matched : s.status = .matched) :
    ∃ earlier batch before step i, s.history = earlier ++ [batch] ∧
      s.steps = before ++ [step] ∧ rules[i]? = some step.rule ∧
      (step.number = 2 * i + 1 ∨ step.number = 2 * i + 2) ∧
      batch.first ≤ i + 1 ∧ i + 1 ≤ batch.last := by
  obtain ⟨earlier, batch, behind, history, first, inOrder, last, unfound⟩ :=
    recorded.place matched
  have found := follows.found.1 matched
  have steps := follows.steps
  have pieces : (PreparedRule.all rules).take s.cursor = (PreparedRule.all rules).take behind ++
      ((PreparedRule.all rules).take s.cursor).drop behind := by
    have front : ((PreparedRule.all rules).take s.cursor).take behind =
        (PreparedRule.all rules).take behind := by
      rw [List.take_take, Nat.min_eq_left (by omega)]
    rw [← front, List.take_append_drop]
  rw [steps] at found
  obtain ⟨before, step, same, hit, _⟩ := found_is_last found
  have member : step ∈ Sequential.search s.target 1 ((PreparedRule.all rules).take s.cursor) := by
    rw [same]
    exact List.mem_append_right _ (List.mem_singleton_self _)
  rw [pieces, search_of_unfound _ unfound] at member
  cases List.mem_append.1 member with
  | inl early => exact absurd ⟨step, early, hit⟩ unfound
  | inr inBatch =>
    obtain ⟨i, p, place, shown⟩ := place_of_mem inBatch
    rw [List.getElem?_drop, List.getElem?_take] at place
    split at place
    · next inside =>
      have count : ((PreparedRule.all rules).take behind).length = behind := by
        have bound := follows.inside
        rw [List.length_take]
        omega
      rw [count] at shown
      have rule : step.rule = p.rule := by
        cases shown with
        | inl forward => rw [forward, checked_rule]
        | inr reverse => rw [reverse, checked_rule]
      refine ⟨earlier, batch, before, step, behind + i, history, steps.trans same, ?_, ?_,
        by omega, by omega⟩
      · rw [← PreparedRule.rules_all rules, List.getElem?_map, place, rule]
        rfl
      · cases shown with
        | inl forward =>
          left
          rw [forward]
          simp only [checked]
          omega
        | inr reverse =>
          right
          rw [reverse]
          simp only [checked]
          omega
    · cases place

theorem Recorded.coherent {rules : List Rule} (recorded : Recorded (PreparedRule.all rules) s)
    (follows : Follows (PreparedRule.all rules) s) : s.Coherent rules where
  toEntries := recorded.toEntries
  numbers := by
    rw [follows.steps]
    exact numbers_search _ _ _
  inside := by
    rw [← PreparedRule.length_all]
    exact follows.inside
  last before step after same hit := by
    rw [follows.steps] at same
    exact nothing_after_match same hit
  found := by
    rw [follows.found, follows.steps]
    exact endsInMatch_iff_finds.symm
  pairs unmatched := by
    have unfound := fun found => unmatched (follows.found.2 found)
    rw [follows.steps] at unfound ⊢
    rw [length_of_unfound unfound, List.length_take, Nat.min_eq_left follows.inside]
  place := recorded.place_of_match follows
  verdict := follows.verdict

theorem Fresh.coherent_later (fresh : s.Fresh) (rules : List Rule) (token : Bool)
    {acts : List Act} (permutes : ∀ a ∈ acts, a.Permutes) :
    Follows (PreparedRule.all rules)
        (Act.performAll (PreparedRule.all rules) ⟨s, token⟩ acts).search ∧
      Recorded (PreparedRule.all rules)
        (Act.performAll (PreparedRule.all rules) ⟨s, token⟩ acts).search :=
  Act.keeps_all (P := fun s => Follows (PreparedRule.all rules) s ∧
      Recorded (PreparedRule.all rules) s)
    (PreparedRule.all_inOrder rules)
    (fun _ _ _ transition kept => ⟨kept.1.transition transition,
      kept.2.transition kept.1 transition⟩)
    acts permutes ⟨fresh.follows, fresh.recorded⟩

-- Whatever a caller has done with a search, its parts agree. Whatever the caller does next,
-- the search goes on from there, and all that is reported on the way agrees as well.
theorem coherent_of_acts (rules : List Rule) (s : Search) (fresh : s.Fresh) (token : Bool)
    (acts : List Act) (permutes : ∀ a ∈ acts, a.Permutes) :
    let now := Act.performAll (PreparedRule.all rules) ⟨s, token⟩ acts
    now.search.Coherent rules ∧ ∀ a : Act, a.Permutes →
      let turn := a.perform (PreparedRule.all rules) now
      now.search.Extends turn.session.search ∧
        ∀ shown ∈ turn.progress, shown.Coherent rules ∧ now.search.Extends shown := by
  intro now
  obtain ⟨follows, recorded⟩ := fresh.coherent_later rules token permutes
  refine ⟨recorded.coherent follows, fun a own => ?_⟩
  have ordered := PreparedRule.all_inOrder rules
  have later := Act.keeps (P := fun t => now.search.Extends t ∧
      Follows (PreparedRule.all rules) t ∧ Recorded (PreparedRule.all rules) t) ordered
    (fun _ _ _ transition kept => ⟨kept.1.trans transition.extends,
      kept.2.1.transition transition, kept.2.2.transition kept.2.1 transition⟩)
    own ⟨.refl _, follows, recorded⟩
  refine ⟨later.1.1, fun shown member => ?_⟩
  obtain ⟨extends_, follows, recorded⟩ := later.2 shown member
  exact ⟨recorded.coherent follows, extends_⟩

theorem coherent_of_odd_acts :
    let acts : List Act := [
      .batch ⟨0, false, true, none, .backwards⟩,
      .batch ⟨-2, true, false, some 2, .backwards⟩,
      .run ⟨-1, false, true, none, .refusing⟩ 0 3,
      .advance (.create ⟨1, false, true, some 3, .backwards⟩ 1),
      .token false,
      .run ⟨7, true, true, none, .cancelling⟩ (-5) 1,
      .token false,
      .run .standard 5 2]
    let rules := [Rule.between [',', 'i'] [',', '7'], Rule.between [',', 'i'] [',', 'j'],
      Rule.between [',', 'i'] [',', 'i']]
    let fresh := Search.begin [',', 'a', 'b'] [',', 'c']
    fresh.Fresh ∧ (∀ a ∈ acts, a.Permutes) ∧
      (Act.performAll (PreparedRule.all rules) ⟨fresh, false⟩ acts).search.Coherent rules := by
  intro acts rules fresh
  have begun : fresh.Fresh := .inl ⟨_, _, rfl⟩
  have permutes : ∀ a ∈ acts, a.Permutes := by
    intro a member o own
    simp only [acts, List.mem_cons, List.not_mem_nil, or_false] at member
    rcases member with rfl | rfl | rfl | rfl | rfl | rfl | rfl | rfl <;> cases own
    · exact FanOut.backwards_shuffles.permutes
    · exact FanOut.backwards_shuffles.permutes
    · exact FanOut.refusing_shuffles.permutes
    · exact FanOut.backwards_shuffles.permutes
    · exact FanOut.cancelling_permutes
    · exact FanOut.inTurn_shuffles.permutes
  exact ⟨begun, permutes, (coherent_of_acts rules fresh begun false acts permutes).1⟩

end Search
end OperatorCalculus
