import OperatorCalculus.Proofs.Search.Act

namespace OperatorCalculus

def Search.cut (s : Search) : Search :=
  if s.halted then s else s.halt .cancelled none .cancelled

theorem Search.cut_of_halted {s : Search} (stopped : s.halted = true) : s.cut = s := if_pos stopped

theorem Search.cut_halted (s : Search) : s.cut.halted = true := by
  unfold cut
  split
  · next stopped => exact stopped
  · rfl

theorem Search.cut_cut (s : Search) : s.cut.cut = s.cut := cut_of_halted s.cut_halted

structure SearchOptions.Attended (o : SearchOptions) : Prop where
  positive : 0 < o.batchSize
  watched : o.watched = true
  permutes : o.fanOut.Permutes

namespace Session

variable {rules : List PreparedRule} {o : SearchOptions} {s : Session}

theorem batch_refused (rules : List PreparedRule) (watched : o.watched = true)
    (asked : s.cancelled = true) :
    (batch o rules s).session.search = s.search.cut ∧ (batch o rules s).failure = none := by
  unfold Search.cut
  have turn := batch_turn o rules s
  generalize batch o rules s = t at turn ⊢
  cases turn with
  | halted stopped => exact ⟨(if_pos stopped).symm, rfl⟩
  | refused live _ =>
    rw [live]
    exact ⟨rfl, rfl⟩
  | spent live free => simp [watched, asked] at free
  | failed live free => simp [watched, asked] at free
  | discarded live free => simp [watched, asked] at free
  | settled live free => simp [watched, asked] at free

theorem cut_completes_nothing {t : Session} (same : t.search = s.search.cut) :
    completedBatch s t = false := by
  have still : s.search.cut.batches = s.search.batches := by
    unfold Search.cut
    split <;> rfl
  simp [completedBatch, same, still]

theorem call_refused (rules : List PreparedRule) (watched : o.watched = true)
    (asked : s.cancelled = true) :
    (call o rules s).session.search = s.search.cut ∧ (call o rules s).failure = none ∧
      (call o rules s).progress = [] := by
  obtain ⟨same, succeeds⟩ := batch_refused rules watched asked
  rw [← call_search] at same
  rw [← call_failure] at succeeds
  refine ⟨same, succeeds, ?_⟩
  rw [call_shown, cut_completes_nothing same]
  simp

theorem calls_refused {n : Nat} {t : Turn} (calls : Calls o rules s n t)
    (watched : o.watched = true) (asked : s.cancelled = true) :
    t.session.search = (if n = 0 then s.search else s.search.cut) ∧ t.progress = [] := by
  cases calls with
  | idle => exact ⟨rfl, rfl⟩
  | failed live fails =>
    rw [(call_refused rules watched asked).2.1] at fails
    cases fails
  | more live succeeds later =>
    obtain ⟨same, _, quiet⟩ := call_refused rules watched asked
    have stopped : (call o rules s).session.search.halted = true := by
      rw [same]
      exact Search.cut_halted _
    obtain ⟨rfl, rfl⟩ := later.of_halted stopped
    refine ⟨same, ?_⟩
    rw [Turn.progress_append]
    exact List.append_eq_nil_iff.2 ⟨quiet, rfl⟩

end Session

namespace Feed

open Session

variable {rules : List PreparedRule} {o : SearchOptions} {s : Session}

theorem advance_refused (f : Feed) (rules : List PreparedRule) (unended : f.ended = false)
    (watched : f.options.watched = true) (asked : s.cancelled = true) :
    (f.advance rules s).2.turn.session.search = s.search.cut := by
  obtain ⟨calls, limit⟩ := callLimit_pos f.yieldEvery
  obtain ⟨same, succeeds, _⟩ := call_refused rules watched asked
  simp only [advance, unended, Bool.false_eq_true, if_false, limit]
  rcases advanceFrom_cases f.options f.yieldEvery rules calls 0 s with
    ⟨stopped, turn⟩ | ⟨_, fails, _⟩ | ⟨_, _, _, turn⟩ | ⟨_, _, going, _⟩
  · rw [turn, Search.cut_of_halted stopped]
  · rw [succeeds] at fails
    cases fails
  · rw [turn, same]
  · rw [yields, same, Search.cut_halted] at going
    cases going

theorem drive_refused (f : Feed) (rules : List PreparedRule) (advances : Nat)
    (unended : f.ended = false) (watched : f.options.watched = true) (asked : s.cancelled = true) :
    (drive rules (advances + 1) f s).session.search = s.search.cut := by
  have first := advance_refused f rules unended watched asked
  have stopped : (f.advance rules s).2.turn.session.search.halted = true := by
    rw [first]
    exact Search.cut_halted _
  simp only [drive]
  split
  · exact first
  · obtain ⟨n, later⟩ := drive_calls rules advances (f.advance rules s).1
      (f.advance rules s).2.turn.session
    rw [(later.of_halted stopped).2]
    exact first

end Feed

namespace Act

open Session

variable {rules : List PreparedRule} {s : Session} {a : Act}

-- Every piece of work is given the one token, and nobody takes its cancellation back.
structure Attended (a : Act) : Prop where
  options : ∀ o, a.options? = some o → o.Attended
  sole : a ≠ .token false

def asks : Act → Bool
  | .batch _ => true
  | .run _ _ advances => 0 < advances
  | .advance f => !f.ended
  | .token _ => false

theorem perform_refused (rules : List PreparedRule) (attended : a.Attended)
    (asked : s.cancelled = true) :
    (a.perform rules s).session.search = (if a.asks then s.search.cut else s.search) ∧
      (a.perform rules s).progress = [] := by
  cases a with
  | batch o =>
    exact ⟨(batch_refused rules (attended.options o rfl).watched asked).1, batch_shown o rules s⟩
  | run o yieldEvery advances =>
    have watched := (attended.options o rfl).watched
    obtain ⟨n, calls⟩ := Feed.drive_calls rules advances (.create o yieldEvery) s
    refine ⟨?_, (calls_refused calls watched asked).2⟩
    cases advances with
    | zero => rfl
    | succ advances => exact Feed.drive_refused _ rules advances rfl watched asked
  | advance f =>
    have watched := (attended.options f.options rfl).watched
    obtain ⟨n, calls⟩ := f.advance_calls rules s
    refine ⟨?_, (calls_refused calls watched asked).2⟩
    cases ended : f.ended with
    | true => simp [perform, Feed.advance, asks, ended]
    | false => simpa [perform, asks, ended] using Feed.advance_refused f rules ended watched asked
  | token cancelled => exact ⟨rfl, rfl⟩

theorem perform_token (rules : List PreparedRule) (attended : a.Attended)
    (asked : s.cancelled = true) :
    (a.perform rules s).session.cancelled = true := by
  rcases perform_cases rules s a with ⟨o, _, same⟩ | ⟨o, n, _, calls⟩ | ⟨token, rfl⟩
  · rw [same]
    exact batch_token o rules s asked
  · exact calls.preserve (P := fun s => s.cancelled = true) (fun s => call_token o rules s) asked
  · cases token with
    | true => rfl
    | false => exact absurd rfl attended.sole

theorem performAll_refused (rules : List PreparedRule) (acts : List Act)
    (attended : ∀ a ∈ acts, a.Attended) (asked : s.cancelled = true) :
    (performAll rules s acts).search = (if acts.any asks then s.search.cut else s.search) ∧
      (performAll rules s acts).cancelled = true := by
  induction acts generalizing s with
  | nil => exact ⟨rfl, asked⟩
  | cons a rest ih =>
    have own := attended a (by simp)
    have first := (perform_refused rules own asked).1
    obtain ⟨later, kept⟩ := ih (fun b member => attended b (List.mem_cons_of_mem _ member))
      (perform_token rules own asked)
    refine ⟨later.trans ?_, kept⟩
    rw [first, List.any_cons]
    cases a.asks with
    | false => rfl
    | true =>
      simp only [if_true, Bool.true_or, Search.cut_cut]
      split <;> rfl

end Act
end OperatorCalculus
