import OperatorCalculus.Proofs.Search.Refusal
import OperatorCalculus.Proofs.Search.Schedule

namespace OperatorCalculus

-- The same search with nobody who would cancel it.
def SearchOptions.calm (o : SearchOptions) : SearchOptions :=
  { o with
    cancelAt := none
    fanOut := fun number checks => ⟨false, (o.fanOut number checks).checks⟩ }

namespace Session

variable {rules : List PreparedRule} {o : SearchOptions} {s : Session}

theorem batch_calm
    (quiet : s.search.complete rules.length = false → (reply o rules s).cancels = false) :
    batch o.calm rules s = batch o rules s := by
  cases more : s.search.complete rules.length with
  | true =>
    simp only [batch, more]
    rfl
  | false =>
    have same : o.calm.fanOut (s.search.batches + 1)
        ((chosen o rules s.search).map (Check.of s.search.target)) = reply o rules s := by
      have calm := quiet more
      simp only [SearchOptions.calm, reply] at calm ⊢
      rw [← calm]
    have pieces : chosen o.calm rules s.search = chosen o rules s.search := rfl
    simp only [batch]
    rw [pieces, same]
    rfl

theorem batch_interrupted (watched : o.watched = true) (live : s.search.halted = false)
    (free : s.cancelled = false) (more : s.search.complete rules.length = false)
    (cancels : (reply o rules s).cancels = true) :
    (batch o rules s).session.search =
      if (batch o rules s).failure.isSome then s.search else s.search.cut := by
  unfold Search.cut
  rw [live]
  have turn := batch_turn o rules s
  generalize batch o rules s = t at turn ⊢
  cases turn with
  | halted stopped => simp [live] at stopped
  | refused _ asked => simp [free] at asked
  | spent _ _ complete => simp [more] at complete
  | failed _ _ _ fails => rfl
  | discarded _ _ _ answer asked => rfl
  | settled _ _ _ answer kept => simp [watched, replied, cancels] at kept

-- The token was cancelled on the way, when the calm search stood at w: by whoever saw the
-- progress, or while the checks of the next batch were collected. Nothing is shown from
-- then on, and the search is halted where it stands, or left so by a failure.
inductive Interrupted (o : SearchOptions) (rules : List PreparedRule) (s : Session) (t : Turn) :
    Prop where
  | shown {k : Nat} {w : Session} {events : List SearchEvent}
      (calls : Calls o.calm rules s (k + 1) ⟨w, events, none⟩)
      (awaited : reachesCancel o w = true)
      (progress : t.progress = Turn.progress ⟨w, events, none⟩)
      (last : t.progress.getLast? = some w.search)
      (left : t.session.search = w.search ∨ t.session.search = w.search.cut) :
      Interrupted o rules s t
  | collecting {k : Nat} {w : Session} {events : List SearchEvent}
      (calls : Calls o.calm rules s k ⟨w, events, none⟩)
      (live : w.search.halted = false) (more : w.search.complete rules.length = false)
      (cancels : (reply o rules w).cancels = true)
      (progress : t.progress = Turn.progress ⟨w, events, none⟩)
      (left : t.session.search = if t.failure.isSome then w.search else w.search.cut) :
      Interrupted o rules s t

theorem call_calm_token (o : SearchOptions) (rules : List PreparedRule) (free : s.cancelled = false) :
    (call o.calm rules s).session.cancelled = false :=
  (call_cancelled rules s rfl).trans (batch_uncancelled free fun _ => rfl)

-- A call while the token is not cancelled: it is that of the calm search, or its progress is
-- the one that was waited for, or it is interrupted.
inductive CallMoment (o : SearchOptions) (rules : List PreparedRule) (s : Session) :
    Turn → Prop where
  | calm : CallMoment o rules s (call o.calm rules s)
  | shown (awaited : reachesCancel o (call o.calm rules s).session = true)
      (succeeds : (call o.calm rules s).failure = none)
      (progress : (call o.calm rules s).progress = [(call o.calm rules s).session.search]) :
      CallMoment o rules s { call o.calm rules s with
        session := { (call o.calm rules s).session with cancelled := true } }
  | collecting {t : Turn} (more : s.search.complete rules.length = false)
      (cancels : (reply o rules s).cancels = true) (progress : t.progress = [])
      (left : t.session.search = if t.failure.isSome then s.search else s.search.cut) :
      CallMoment o rules s t

theorem call_moment_of_quiet
    (quiet : s.search.complete rules.length = false → (reply o rules s).cancels = false) :
    CallMoment o rules s (call o rules s) := by
  have same := batch_calm quiet
  cases done : ((batch o rules s).failure.isNone && completedBatch s (batch o rules s).session) with
  | false =>
    have turn : call o rules s = call o.calm rules s := by
      simp only [call, same, done]
      rfl
    rw [turn]
    exact .calm
  | true =>
    cases awaited : reachesCancel o (batch o rules s).session with
    | false =>
      have turn : call o rules s = call o.calm rules s := by
        simp only [call, same, done, awaited]
        rfl
      rw [turn]
      exact .calm
    | true =>
      have turn : call o rules s = { call o.calm rules s with
          session := { (call o.calm rules s).session with cancelled := true } } := by
        simp only [call, same, done, awaited, Bool.or_true]
        rfl
      rw [turn]
      refine .shown ?_ ?_ ?_
      · rw [reachesCancel, call_search, same]
        exact awaited
      · rw [call_failure, same, ← Option.isNone_iff_eq_none]
        exact (Bool.and_eq_true_iff.1 done).1
      · rw [completedBatch] at done
        rw [call_shown, completedBatch, call_search, call_failure, same, if_pos done]

theorem call_moment (rules : List PreparedRule) (watched : o.watched = true)
    (live : s.search.halted = false) (free : s.cancelled = false) : CallMoment o rules s (call o rules s) := by
  by_cases quiet : s.search.complete rules.length = false → (reply o rules s).cancels = false
  · exact call_moment_of_quiet quiet
  · simp only [Classical.not_imp, Bool.not_eq_false] at quiet
    obtain ⟨more, cancels⟩ := quiet
    have left := batch_interrupted watched live free more cancels
    rw [← call_search, ← call_failure] at left
    refine .collecting more cancels ?_ left
    rw [call_shown]
    cases failure : (call o rules s).failure with
    | some f => rfl
    | none =>
      rw [failure] at left
      rw [cut_completes_nothing left]
      rfl

theorem Interrupted.later {t : Turn} (live : s.search.halted = false)
    (succeeds : (call o.calm rules s).failure = none)
    (interrupted : Interrupted o rules (call o.calm rules s).session t) :
    Interrupted o rules s { t with events := (call o.calm rules s).events ++ t.events } := by
  cases interrupted with
  | shown calls awaited progress last left =>
    refine .shown (.more live succeeds calls) awaited ?_ ?_ left
    · rw [Turn.progress_append, progress]
      exact List.filterMap_append.symm
    · rw [Turn.progress_append, List.getLast?_append, last]
      rfl
  | collecting calls unhalted more cancels progress left =>
    refine .collecting (.more live succeeds calls) unhalted more cancels ?_ left
    rw [Turn.progress_append, progress]
    exact List.filterMap_append.symm

theorem calls_interrupted {n : Nat} {t : Turn} (calls : Calls o rules s n t)
    (watched : o.watched = true) (free : s.cancelled = false)
    (asked : t.session.cancelled = true) : Interrupted o rules s t := by
  induction calls with
  | idle =>
    rw [free] at asked
    cases asked
  | @failed s live fails =>
    have moment := call_moment rules watched live free
    generalize call o rules s = t at moment fails asked ⊢
    cases moment with
    | calm =>
      rw [call_calm_token o rules free] at asked
      cases asked
    | shown awaited succeeds progress =>
      rw [succeeds] at fails
      cases fails
    | collecting more cancels progress left =>
      exact .collecting .idle live more cancels progress left
  | @more s n t live succeeds later ih =>
    have moment := call_moment rules watched live free
    generalize call o rules s = first at moment succeeds later ih ⊢
    cases moment with
    | calm => exact (ih (call_calm_token o rules free) asked).later live succeeds
    | shown awaited calm progress =>
      obtain ⟨left, quiet⟩ := calls_refused later watched rfl
      have one : Turn.progress { t with events := (call o.calm rules s).events ++ t.events } =
          (call o.calm rules s).progress := by
        rw [Turn.progress_append, quiet, List.append_nil]
        rfl
      refine .shown (.more live calm .idle) awaited ?_ ?_ ?_
      · rw [one, List.append_nil]
        rfl
      · rw [one, progress]
        rfl
      · by_cases none : n = 0
        · rw [if_pos none] at left
          exact .inl left
        · rw [if_neg none] at left
          exact .inr left
    | collecting more cancels progress left =>
      rw [succeeds] at left
      have stopped : first.session.search.halted = true := by
        rw [left]
        exact Search.cut_halted _
      obtain ⟨rfl, rfl⟩ := later.of_halted stopped
      refine .collecting .idle live more cancels ?_ left
      rw [Turn.progress_append]
      exact List.append_eq_nil_iff.2 ⟨progress, rfl⟩

end Session

namespace Act

open Session

variable {target : Sides} {rules : List PreparedRule} {s : Session} {a : Act}

theorem perform_stands (ordered : PreparedRule.InOrder rules) (attended : a.Attended)
    (stands : Stands target rules s) : Stands target rules (a.perform rules s).session := by
  rcases perform_cases rules s a with ⟨o, own, same⟩ | ⟨o, n, own, calls⟩ | ⟨token, rfl⟩
  · rw [same]
    exact batch_stands stands ordered (attended.options o own).permutes
  · exact calls.preserve (fun _ before => call_stands before ordered (attended.options o own).permutes)
      stands
  · cases token with
    | true => exact stands.transition .stay fun _ => rfl
    | false => exact absurd rfl attended.sole

theorem performAll_stands (ordered : PreparedRule.InOrder rules) (acts : List Act)
    (attended : ∀ a ∈ acts, a.Attended) (stands : Stands target rules s) :
    Stands target rules (performAll rules s acts) :=
  List.foldlRecOn acts _ stands fun _ before a member =>
    perform_stands ordered (attended a member) before

theorem perform_interrupted {o : SearchOptions} (attended : a.Attended)
    (own : a.options? = some o) (free : s.cancelled = false)
    (asked : (a.perform rules s).session.cancelled = true) :
    Interrupted o rules s (a.perform rules s) := by
  have watched := (attended.options o own).watched
  rcases perform_cases rules s a with ⟨o', same, turn⟩ | ⟨o', n, same, calls⟩ | ⟨token, rfl⟩
  · cases own.symm.trans same
    rw [turn] at asked ⊢
    by_cases quiet : s.search.complete rules.length = false → (reply o rules s).cancels = false
    · rw [batch_uncancelled free quiet] at asked
      cases asked
    · simp only [Classical.not_imp, Bool.not_eq_false] at quiet
      obtain ⟨more, cancels⟩ := quiet
      cases live : s.search.halted with
      | true =>
        rw [batch_of_halted o rules live, free] at asked
        cases asked
      | false =>
        exact .collecting .idle live more cancels (batch_shown o rules s)
          (batch_interrupted watched live free more cancels)
  · cases own.symm.trans same
    exact calls_interrupted calls watched free asked
  · cases own

end Act

namespace Session

-- Whatever the caller does with one token: a search at its end has the whole answer, any
-- other one has the steps of its complete batches and no verdict. A search is cancelled only
-- by the token. Once it is cancelled nothing is shown, and the first piece of work that asks
-- it halts the search where it stands.
theorem cancelled_between_batches (rules : List Rule) (start goal : Text)
    (running : (Search.begin start goal).status = .running) (token : Bool) (acts : List Act)
    (attended : ∀ a ∈ acts, a.Attended) :
    let s := Act.performAll (PreparedRule.all rules) ⟨.begin start goal, token⟩ acts
    (s.search.status = .running ∨ s.search.status = .matched ∨ s.search.status = .exhausted ∨
      (s.search.status = .cancelled ∧ s.cancelled = true)) ∧
    (∀ moves : List Move, (∀ m ∈ moves, m.options.Undisturbed) →
      let whole := Move.performAll (PreparedRule.all rules) ⟨.begin start goal, false⟩ moves
      whole.search.halted = true →
      (s.search.status = .matched ∨ s.search.status = .exhausted →
        s.search.result = whole.search.result) ∧
      (s.search.status = .running ∨ s.search.status = .cancelled → s.search.verdict = none ∧
        s.search.steps = whole.search.steps.take (2 * s.search.cursor))) ∧
    (s.cancelled = false → ∀ (a : Act) (o : SearchOptions), a.Attended → a.options? = some o →
      (a.perform (PreparedRule.all rules) s).session.cancelled = true →
      Interrupted o (PreparedRule.all rules) s (a.perform (PreparedRule.all rules) s)) ∧
    (s.cancelled = true → ∀ later : List Act, (∀ a ∈ later, a.Attended) →
      let t := Act.performAll (PreparedRule.all rules) s later
      t.search = (if later.any Act.asks then s.search.cut else s.search) ∧
      ∀ a : Act, a.Attended → (a.perform (PreparedRule.all rules) t).progress = []) ∧
    ∀ (o : SearchOptions) (yieldEvery : Int), o.Attended →
      (run o yieldEvery (PreparedRule.all rules) s).failure = none →
      (run o yieldEvery (PreparedRule.all rules) s).session.search.halted = true := by
  intro s
  have ordered := PreparedRule.all_inOrder rules
  have stands : Stands (Sequential.target start goal) (PreparedRule.all rules) s :=
    Act.performAll_stands ordered acts attended (begin_stands running token)
  refine ⟨stands.course, ?_, ?_, ?_, fun o yieldEvery given => run_ends given.positive yieldEvery⟩
  · intro moves undisturbed whole stopped
    have tracks : Tracks (Sequential.target start goal) (PreparedRule.all rules) whole :=
      moves_track ordered moves undisturbed (begin_tracks running)
    obtain ⟨steps, status, verdict⟩ := tracks.stopped stopped
    constructor
    · intro ended
      obtain ⟨steps', status', verdict'⟩ := stands.ended ended
      simp only [Search.result, steps, steps', status, status', verdict, verdict']
    · intro open_
      have unmatched : s.search.status ≠ .matched := by
        rcases open_ with same | same <;> simp [same]
      refine ⟨?_, ?_⟩
      · rw [stands.follows.verdict]
        rcases open_ with same | same <;> rw [same] <;> rfl
      · rw [steps]
        exact (stands.steps_of_unmatched unmatched).1
  · exact fun free a o given own asked => Act.perform_interrupted given own free asked
  · intro asked later given t
    obtain ⟨search, kept⟩ := Act.performAll_refused (PreparedRule.all rules) later given asked
    exact ⟨search, fun a own => (Act.perform_refused _ own kept).2⟩

theorem cancelled_between_batches_collecting :
    let rules := [Rule.between [',', 'i'] [',', '7'], Rule.between [',', 'i'] [',', 'j']]
    let o : SearchOptions := ⟨2, true, true, none, .cancelling⟩
    let fresh : Session := ⟨.begin [',', 'a'] [',', 'c'], false⟩
    let acts : List Act := [.batch ⟨1, false, true, some 3, .backwards⟩, .token true]
    let later : List Act := [.run o 5 0, .advance (.create o 1)]
    let s := Act.performAll (PreparedRule.all rules) fresh acts
    (Search.begin [',', 'a'] [',', 'c']).status = .running ∧
      (∀ a ∈ acts, a.Attended) ∧ (∀ a ∈ later, a.Attended) ∧ s.cancelled = true ∧
      (Act.performAll (PreparedRule.all rules) s later).search = s.search.cut ∧
      ((Act.run o 5 3).perform (PreparedRule.all rules) fresh).session.cancelled = true ∧
      Interrupted o (PreparedRule.all rules) fresh
        ((Act.run o 5 3).perform (PreparedRule.all rules) fresh) := by
  intro rules o fresh acts later s
  have running : (Search.begin [',', 'a'] [',', 'c']).status = .running := by decide +kernel
  have watched : o.Attended := ⟨by decide, rfl, FanOut.cancelling_permutes⟩
  have attended : ∀ a ∈ acts, a.Attended := by
    intro a member
    simp only [acts, List.mem_cons, List.not_mem_nil, or_false] at member
    rcases member with rfl | rfl
    · refine ⟨?_, nofun⟩
      intro o own
      cases own
      exact ⟨by decide, rfl, FanOut.backwards_shuffles.permutes⟩
    · exact ⟨nofun, nofun⟩
  have given : ∀ a ∈ later, a.Attended := by
    intro a member
    simp only [later, List.mem_cons, List.not_mem_nil, or_false] at member
    rcases member with rfl | rfl <;>
    · refine ⟨?_, nofun⟩
      intro o' own
      cases own
      exact watched
  have asked : ((Act.run o 5 3).perform (PreparedRule.all rules) fresh).session.cancelled = true := by
    decide +kernel
  have run : (Act.run o 5 3).Attended := by
    refine ⟨?_, nofun⟩
    intro o' own
    cases own
    exact watched
  have cut := ((cancelled_between_batches rules _ _ running false acts attended).2.2.2.1
    rfl later given).1
  have interrupted := (cancelled_between_batches rules _ _ running false [] nofun).2.2.1
    rfl (.run o 5 3) o run rfl asked
  exact ⟨running, attended, given, rfl, cut, asked, interrupted⟩

end Session
end OperatorCalculus
