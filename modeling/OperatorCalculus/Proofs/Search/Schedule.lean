import OperatorCalculus.Proofs.Search.Halting

-- Any schedule of batches, runs and feed advances does the plain search of the rules.
-- Sizes may change from move to move, and any number of feeds may take turns: a feed
-- keeps nothing between two advances but its options and whether it has ended.
namespace OperatorCalculus

inductive Move where
  | batch (options : SearchOptions)
  | run (options : SearchOptions) (yieldEvery : Int)
  | advance (feed : Feed)

namespace Move

def options : Move → SearchOptions
  | .batch o => o
  | .run o _ => o
  | .advance f => f.options

def perform (rules : List PreparedRule) (s : Session) : Move → Turn
  | .batch o => Session.batch o rules s
  | .run o yieldEvery => Session.run o yieldEvery rules s
  | .advance f => (f.advance rules s).2.turn

def performAll (rules : List PreparedRule) (s : Session) (moves : List Move) : Session :=
  moves.foldl (fun s m => (m.perform rules s).session) s

end Move

namespace FanOut

-- A fan-out that finishes the last check first, and one that never gets to work.
def backwards : FanOut := fun _ checks => ⟨false, .ok checks.reverse⟩
def refusing : FanOut := fun _ _ => ⟨false, .error "no worker".toList⟩

theorem backwards_shuffles : backwards.Shuffles := by
  intro number checks
  refine ⟨rfl, ?_⟩
  intro answer same
  cases same
  exact List.reverse_perm checks

theorem refusing_shuffles : refusing.Shuffles := by
  intro number checks
  refine ⟨rfl, ?_⟩
  intro answer same
  cases same

end FanOut

namespace Sequential

def EndsInMatch (steps : List ProofStep) : Prop :=
  ∃ before last, steps = before ++ [last] ∧ last.isMatch = true

theorem endsInMatch_iff_finds {target : Sides} {rules : List PreparedRule} {number : Nat} :
    EndsInMatch (search target number rules) ↔ Finds (search target number rules) := by
  constructor
  · intro found
    obtain ⟨before, last, same, hit⟩ := found
    exact ⟨last, by simp [same], hit⟩
  · intro found
    obtain ⟨before, last, same, hit, _⟩ := found_is_last found
    exact ⟨before, last, same, hit⟩

end Sequential

namespace Session

variable {target : Sides} {rules : List PreparedRule} {o : SearchOptions} {s : Session}

theorem move_tracks (ordered : PreparedRule.InOrder rules) (m : Move)
    (undisturbed : m.options.Undisturbed) (tracks : Tracks target rules s) :
    Tracks target rules (m.perform rules s).session := by
  cases m with
  | batch o => exact batch_tracks tracks ordered undisturbed.2.2
  | run o yieldEvery =>
    obtain ⟨n, calls⟩ := run_calls o yieldEvery rules s
    exact calls_track undisturbed ordered calls tracks
  | advance f =>
    obtain ⟨n, calls⟩ := f.advance_calls rules s
    exact calls_track undisturbed ordered calls tracks

theorem moves_track (ordered : PreparedRule.InOrder rules) (moves : List Move)
    (undisturbed : ∀ m ∈ moves, m.options.Undisturbed) (tracks : Tracks target rules s) :
    Tracks target rules (Move.performAll rules s moves) :=
  List.foldlRecOn moves _ tracks fun _ before m member =>
    move_tracks ordered m (undisturbed m member) before

theorem Tracks.steps_of_live (tracks : Tracks target rules s) (live : s.search.halted = false) :
    s.search.steps = (Sequential.search target 1 rules).take (2 * s.search.cursor) ∧
      s.search.steps <+: Sequential.search target 1 rules := by
  refine tracks.steps_of_unmatched fun matched => ?_
  rw [Search.halted, matched] at live
  cases live

theorem run_bound (ordered : PreparedRule.InOrder rules) (undisturbed : o.Undisturbed)
    (yieldEvery : Int) (tracks : Tracks target rules s) :
    ∃ calls ≤ max 1 ((rules.length + o.batchSize.toNat - 1) / o.batchSize.toNat),
      Calls o rules s calls (run o yieldEvery rules s) := by
  obtain ⟨n, calls⟩ := run_calls o yieldEvery rules s
  have bound := calls_bound undisturbed ordered calls tracks
  have weaker : (rules.length - s.search.cursor + o.batchSize.toNat - 1) / o.batchSize.toNat ≤
      (rules.length + o.batchSize.toNat - 1) / o.batchSize.toNat :=
    Nat.div_le_div_right (by omega)
  exact ⟨n, by omega, calls⟩

theorem schedule_follows_sequential (rules : List Rule) (start goal : Text)
    (running : (Search.begin start goal).status = .running) (moves : List Move)
    (undisturbed : ∀ m ∈ moves, m.options.Undisturbed) :
    let s := Move.performAll (PreparedRule.all rules) ⟨.begin start goal, false⟩ moves
    let steps := Sequential.steps rules start goal
    s.search.steps <+: steps ∧
    (s.search.halted = false → s.search.steps = steps.take (2 * s.search.cursor)) ∧
    (s.search.halted = true → s.search.steps = steps ∧
      (Sequential.EndsInMatch steps → s.search.status = .matched ∧ s.search.verdict = some true) ∧
      (¬ Sequential.EndsInMatch steps →
        s.search.status = .exhausted ∧ s.search.verdict = some false)) ∧
    ∀ (o : SearchOptions) (yieldEvery : Int), o.Undisturbed →
      (run o yieldEvery (PreparedRule.all rules) s).failure = none →
      (run o yieldEvery (PreparedRule.all rules) s).session.search.halted = true ∧
      ∃ calls ≤ max 1 ((rules.length + o.batchSize.toNat - 1) / o.batchSize.toNat),
        Calls o (PreparedRule.all rules) s calls (run o yieldEvery (PreparedRule.all rules) s) := by
  intro s steps
  have ordered := PreparedRule.all_inOrder rules
  have tracks : Tracks (Sequential.target start goal) (PreparedRule.all rules) s :=
    moves_track ordered moves undisturbed (begin_tracks running)
  refine ⟨?_, fun live => (tracks.steps_of_live live).1, ?_, ?_⟩
  · cases live : s.search.halted with
    | false => exact (tracks.steps_of_live live).2
    | true =>
      rw [(tracks.stopped live).1]
      exact List.prefix_refl _
  · intro stopped
    obtain ⟨same, status, verdict⟩ := tracks.stopped stopped
    rw [same] at status verdict
    refine ⟨same, fun matched => ?_, fun unmatched => ?_⟩
    · have found := Sequential.endsInMatch_iff_finds.1 matched
      exact ⟨by rw [status, if_pos found], by rw [verdict, decide_eq_true found]⟩
    · have unfound := (not_congr Sequential.endsInMatch_iff_finds).1 unmatched
      exact ⟨by rw [status, if_neg unfound], by rw [verdict, decide_eq_false unfound]⟩
  · intro o yieldEvery calm succeeds
    have bound := run_bound ordered calm yieldEvery tracks
    rw [PreparedRule.length_all] at bound
    exact ⟨run_ends calm.1 yieldEvery succeeds, bound⟩

theorem schedule_follows_sequential_mixed :
    let moves : List Move := [
      .batch ⟨1, false, false, none, .backwards⟩,
      .run ⟨2, false, false, none, .refusing⟩ 3,
      .advance (.create ⟨2, false, true, none, .backwards⟩ 1),
      .run .standard 5]
    let rules := [Rule.between [',', 'i'] [',', '7'], Rule.between [',', 'i'] [',', 'j'],
      Rule.between [',', 'i'] [',', 'i']]
    let s := Move.performAll (PreparedRule.all rules)
      ⟨.begin [',', 'a', 'b'] [',', 'c'], false⟩ moves
    (Search.begin [',', 'a', 'b'] [',', 'c']).status = .running ∧
      (∀ m ∈ moves, m.options.Undisturbed) ∧
      s.search.steps <+: Sequential.steps rules [',', 'a', 'b'] [',', 'c'] := by
  intro moves rules s
  have running : (Search.begin [',', 'a', 'b'] [',', 'c']).status = .running := by
    decide +kernel
  have undisturbed : ∀ m ∈ moves, m.options.Undisturbed := by
    intro m member
    simp only [moves, List.mem_cons, List.not_mem_nil, or_false] at member
    rcases member with rfl | rfl | rfl | rfl
    · exact ⟨by decide, rfl, FanOut.backwards_shuffles⟩
    · exact ⟨by decide, rfl, FanOut.refusing_shuffles⟩
    · exact ⟨by decide, rfl, FanOut.backwards_shuffles⟩
    · exact SearchOptions.standard_undisturbed
  exact ⟨running, undisturbed, (schedule_follows_sequential rules _ _ running moves undisturbed).1⟩

end Session
end OperatorCalculus
