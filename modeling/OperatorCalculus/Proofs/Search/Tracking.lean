import OperatorCalculus.Proofs.Search.Transition

-- Where a search that was begun on a target stands on the plain one. A batch of any size
-- moves it forward along the same steps: replies may be shuffled, a fan-out may fail and
-- the token may be cancelled. Without cancellation nothing but the end of the plain
-- search can halt it.
namespace OperatorCalculus

-- The checks come back in some order, or not at all, and the token is left alone.
def FanOut.Shuffles (f : FanOut) : Prop :=
  ∀ number checks, (f number checks).cancels = false ∧
    ∀ answer, (f number checks).checks = .ok answer → answer.Perm checks

def SearchOptions.Undisturbed (o : SearchOptions) : Prop :=
  0 < o.batchSize ∧ o.cancelAt = none ∧ o.fanOut.Shuffles

theorem FanOut.Shuffles.permutes {f : FanOut} (shuffles : f.Shuffles) : f.Permutes :=
  fun number checks => (shuffles number checks).2

theorem FanOut.inTurn_shuffles : FanOut.inTurn.Shuffles := by
  intro number checks
  refine ⟨rfl, ?_⟩
  intro answer same
  cases same
  exact List.Perm.refl _

theorem SearchOptions.standard_undisturbed : SearchOptions.standard.Undisturbed :=
  ⟨by decide, rfl, FanOut.inTurn_shuffles⟩

namespace Session

structure Stands (target : Sides) (rules : List PreparedRule) (s : Session) : Prop where
  aim : s.search.target = target
  follows : s.search.Follows rules
  course : s.search.status = .running ∨ s.search.status = .matched ∨
    s.search.status = .exhausted ∨ (s.search.status = .cancelled ∧ s.cancelled = true)

-- The same as long as nobody has cancelled the token.
structure Tracks (target : Sides) (rules : List PreparedRule) (s : Session) : Prop extends
    Stands target rules s where
  uncancelled : s.cancelled = false

variable {target : Sides} {rules : List PreparedRule} {o : SearchOptions} {s : Session}

theorem begin_stands {start goal : Text} (running : (Search.begin start goal).status = .running)
    (token : Bool) :
    Stands (Sequential.target start goal) rules ⟨.begin start goal, token⟩ := by
  have state : Search.begin start goal =
      { Search.idle start goal (Sequential.target start goal) with status := .running } := by
    unfold Search.begin at running ⊢
    simp only at running ⊢
    split at running
    · cases running
    · next text =>
      split at running
      · cases running
      · next forms =>
        rw [if_neg text, if_neg forms]
        rfl
  rw [state]
  refine ⟨rfl, ⟨Nat.zero_le _, rfl, ?_, nofun, rfl⟩, .inl rfl⟩
  simp [Search.idle, Sequential.Finds]

theorem begin_tracks {start goal : Text} (running : (Search.begin start goal).status = .running) :
    Tracks (Sequential.target start goal) rules ⟨.begin start goal, false⟩ :=
  ⟨begin_stands running false, rfl⟩

theorem Stands.live (stands : Stands target rules s) (live : s.search.halted = false) :
    s.search.steps = Sequential.search target 1 (rules.take s.search.cursor) ∧
      ¬ Sequential.Finds s.search.steps := by
  rw [← stands.aim]
  exact ⟨stands.follows.steps, stands.follows.unfound live⟩

theorem Stands.steps_of_unmatched (stands : Stands target rules s)
    (unmatched : s.search.status ≠ .matched) :
    s.search.steps = (Sequential.search target 1 rules).take (2 * s.search.cursor) ∧
      s.search.steps <+: Sequential.search target 1 rules := by
  obtain ⟨aim, ⟨inside, steps, found, _, _⟩, _⟩ := stands
  have unfound := fun finds => unmatched (found.2 finds)
  rw [aim] at steps
  rw [steps] at unfound
  have whole := Sequential.search_of_unfound (rules.drop s.search.cursor) unfound
  have count := Sequential.length_of_unfound unfound
  rw [List.length_take, Nat.min_eq_left inside] at count
  rw [List.take_append_drop] at whole
  rw [steps, whole, ← count]
  exact ⟨List.take_left.symm, List.prefix_append _ _⟩

theorem Stands.ended (stands : Stands target rules s)
    (ended : s.search.status = .matched ∨ s.search.status = .exhausted) :
    s.search.steps = Sequential.search target 1 rules ∧
      s.search.status = (if Sequential.Finds s.search.steps then .matched else .exhausted) ∧
      s.search.verdict = some (Decidable.decide (Sequential.Finds s.search.steps)) := by
  obtain ⟨aim, ⟨inside, steps, found, spent, verdict⟩, _⟩ := stands
  rw [aim] at steps
  cases ended with
  | inl hit =>
    have finds := found.1 hit
    have whole := steps
    rw [steps] at finds
    have rest := Sequential.search_of_found (rules.drop s.search.cursor) finds
    rw [List.take_append_drop] at rest
    rw [← steps] at finds
    rw [verdict, hit, if_pos finds, decide_eq_true finds]
    exact ⟨steps.trans rest.symm, rfl, rfl⟩
  | inr spent_ =>
    have unfound : ¬ Sequential.Finds s.search.steps := by
      intro finds
      rw [found.2 finds] at spent_
      cases spent_
    rw [spent spent_, List.take_length] at steps
    rw [verdict, spent_, if_neg unfound, decide_eq_false unfound]
    exact ⟨steps, rfl, rfl⟩

theorem Tracks.stopped (tracks : Tracks target rules s) (stopped : s.search.halted = true) :
    s.search.steps = Sequential.search target 1 rules ∧
      s.search.status = (if Sequential.Finds s.search.steps then .matched else .exhausted) ∧
      s.search.verdict = some (Decidable.decide (Sequential.Finds s.search.steps)) := by
  refine tracks.ended ?_
  rcases tracks.course with running | hit | spent | ⟨_, asked⟩
  · rw [Search.halted, running] at stopped
    cases stopped
  · exact .inl hit
  · exact .inr spent
  · rw [tracks.uncancelled] at asked
    cases asked

theorem Stands.transition {t : Session} (stands : Stands target rules s)
    (transition : Search.Transition rules t.cancelled s.search t.search)
    (kept : s.cancelled = true → t.cancelled = true) : Stands target rules t := by
  have course := stands.course
  have follows := stands.follows.transition transition
  refine ⟨transition.target.trans stands.aim, follows, ?_⟩
  obtain ⟨search, token⟩ := t
  simp only at transition kept ⊢
  cases transition with
  | stay => exact course.imp_right (Or.imp_right (Or.imp_right (And.imp_right kept)))
  | cancel live asked => exact .inr (.inr (.inr ⟨rfl, asked⟩))
  | spend live all => exact .inr (.inr (.inl rfl))
  | find live next found id => exact .inr (.inl rfl)
  | finish live next unfound all => exact .inr (.inr (.inl rfl))
  | proceed live next unfound more =>
    exact course.imp_right (Or.imp_right (Or.imp_right (And.imp_right kept)))

theorem batch_stands (stands : Stands target rules s) (ordered : PreparedRule.InOrder rules)
    (permutes : o.fanOut.Permutes) : Stands target rules (batch o rules s).session :=
  stands.transition (batch_transition ordered permutes s) (batch_token o rules s)

theorem call_stands (stands : Stands target rules s) (ordered : PreparedRule.InOrder rules)
    (permutes : o.fanOut.Permutes) : Stands target rules (call o rules s).session :=
  stands.transition (call_transition ordered permutes s) (call_token o rules s)

theorem batch_uncancelled (uncancelled : s.cancelled = false)
    (quiet : s.search.complete rules.length = false → (reply o rules s).cancels = false) :
    (batch o rules s).session.cancelled = false := by
  have untouched : s.search.complete rules.length = false → (replied o rules s).cancelled = false := by
    intro more
    simp [replied, quiet more, uncancelled]
  have turn := batch_turn o rules s
  generalize batch o rules s = t at turn ⊢
  cases turn with
  | halted => exact uncancelled
  | refused => exact uncancelled
  | spent => exact uncancelled
  | failed _ _ more => exact untouched more
  | discarded _ _ more => exact untouched more
  | settled _ _ more => exact (settle_cases _ _ _ _ _).2.1.trans (untouched more)

theorem batch_tracks (tracks : Tracks target rules s) (ordered : PreparedRule.InOrder rules)
    (shuffles : o.fanOut.Shuffles) : Tracks target rules (batch o rules s).session :=
  ⟨batch_stands tracks.toStands ordered shuffles.permutes,
    batch_uncancelled tracks.uncancelled fun _ => (shuffles _ _).1⟩

theorem call_tracks (tracks : Tracks target rules s) (ordered : PreparedRule.InOrder rules)
    (awaited : o.cancelAt = none) (shuffles : o.fanOut.Shuffles) :
    Tracks target rules (call o rules s).session :=
  ⟨call_stands tracks.toStands ordered shuffles.permutes,
    (call_cancelled rules s awaited).trans
      (batch_uncancelled tracks.uncancelled fun _ => (shuffles _ _).1)⟩

end Session
end OperatorCalculus
