import OperatorCalculus.Search.Drive

-- What one batch can do to a session, case by case, and what a feed or a run is made
-- of: calls of a batch, one after the other, none of them on a search that has halted.
-- A property that every call keeps is kept by every advance and every run.
namespace OperatorCalculus

theorem Search.complete_iff (s : Search) (rules : Nat) : s.complete rules = true ↔ rules ≤ s.cursor := by
  simp [complete]

theorem Turn.progress_append (before : List SearchEvent) (t : Turn) :
    Turn.progress { t with events := before ++ t.events } =
      Turn.progress { t with events := before } ++ t.progress :=
  List.filterMap_append

namespace Session

variable {o : SearchOptions} {rules : List PreparedRule} {s : Session}

def reply (o : SearchOptions) (rules : List PreparedRule) (s : Session) : Reply :=
  o.fanOut (s.search.batches + 1) ((chosen o rules s.search).map (Check.of s.search.target))

def replied (o : SearchOptions) (rules : List PreparedRule) (s : Session) : Session :=
  { s with cancelled := s.cancelled || (reply o rules s).cancels }

inductive BatchTurn (o : SearchOptions) (rules : List PreparedRule) (s : Session) : Turn → Prop where
  | halted (stopped : s.search.halted = true) : BatchTurn o rules s ⟨s, [], none⟩
  | refused (live : s.search.halted = false) (asked : (o.watched && s.cancelled) = true) :
      BatchTurn o rules s
        ⟨s.halt .cancelled none .cancelled, said o [cancelledLine "before" s.search], none⟩
  | spent (live : s.search.halted = false) (free : (o.watched && s.cancelled) = false)
      (complete : s.search.complete rules.length = true) :
      BatchTurn o rules s ⟨s.halt .exhausted (some false) .noRuleMatched, [], none⟩
  | failed (live : s.search.halted = false) (free : (o.watched && s.cancelled) = false)
      (more : s.search.complete rules.length = false) {failure : Text}
      (fails : (reply o rules s).checks = .error failure) :
      BatchTurn o rules s ⟨replied o rules s, [], some failure⟩
  | discarded (live : s.search.halted = false) (free : (o.watched && s.cancelled) = false)
      (more : s.search.complete rules.length = false) {checks : List Check}
      (answer : (reply o rules s).checks = .ok checks)
      (asked : (o.watched && (replied o rules s).cancelled) = true) :
      BatchTurn o rules s ⟨(replied o rules s).halt .cancelled none .cancelled,
        said o [cancelledLine "during" s.search], none⟩
  | settled (live : s.search.halted = false) (free : (o.watched && s.cancelled) = false)
      (more : s.search.complete rules.length = false) {checks : List Check}
      (answer : (reply o rules s).checks = .ok checks)
      (kept : (o.watched && (replied o rules s).cancelled) = false) :
      BatchTurn o rules s
        (settle o rules.length (chosen o rules s.search).length checks (replied o rules s))

theorem batch_turn (o : SearchOptions) (rules : List PreparedRule) (s : Session) :
    BatchTurn o rules s (batch o rules s) := by
  cases live : s.search.halted with
  | true =>
    rw [batch_of_halted o rules live]
    exact .halted live
  | false =>
    cases free : (o.watched && s.cancelled) with
    | true =>
      have same : batch o rules s =
          ⟨s.halt .cancelled none .cancelled, said o [cancelledLine "before" s.search], none⟩ := by
        simp [batch, live, free]
      rw [same]
      exact .refused live free
    | false =>
      cases more : s.search.complete rules.length with
      | true =>
        have same : batch o rules s = ⟨s.halt .exhausted (some false) .noRuleMatched, [], none⟩ := by
          simp [batch, live, free, more]
        rw [same]
        exact .spent live free more
      | false =>
        cases answer : (reply o rules s).checks with
        | error failure =>
          have same : batch o rules s = ⟨replied o rules s, [], some failure⟩ := by
            simp only [reply] at answer
            simp [batch, live, free, more, replied, reply, answer]
          rw [same]
          exact .failed live free more answer
        | ok checks =>
          cases kept : (o.watched && (replied o rules s).cancelled) with
          | true =>
            have same : batch o rules s = ⟨(replied o rules s).halt .cancelled none .cancelled,
                said o [cancelledLine "during" s.search], none⟩ := by
              simp only [reply, replied] at answer kept
              simp [batch, live, free, more, replied, reply, answer, kept]
            rw [same]
            exact .discarded live free more answer kept
          | false =>
            have same : batch o rules s = settle o rules.length
                (chosen o rules s.search).length checks (replied o rules s) := by
              simp only [reply, replied] at answer kept
              simp [batch, live, free, more, replied, reply, answer, kept]
            rw [same]
            exact .settled live free more answer kept

def added (s : Search) (checks : List Check) : List ProofStep :=
  numberedFrom (s.steps.length + 1) (throughMatch ((inRuleOrder checks).flatMap Check.steps))

theorem settle_cases (o : SearchOptions) (total size : Nat) (checks : List Check) (s : Session) :
    (settle o total size checks s).failure = none ∧
    (settle o total size checks s).session.cancelled = s.cancelled ∧
    ((∃ step, (added s.search checks).find? ProofStep.isMatch = some step ∧
        (settle o total size checks s).session.search =
          (joined s.search size (added s.search checks)).halt .matched (some true)
            (.matchedRule step.rule.id)) ∨
      ((added s.search checks).find? ProofStep.isMatch = none ∧
        (joined s.search size (added s.search checks)).complete total = true ∧
        (settle o total size checks s).session.search =
          (joined s.search size (added s.search checks)).halt .exhausted (some false)
            .noRuleMatched) ∨
      ((added s.search checks).find? ProofStep.isMatch = none ∧
        (joined s.search size (added s.search checks)).complete total = false ∧
        (settle o total size checks s).session.search =
          joined s.search size (added s.search checks))) := by
  cases found : (added s.search checks).find? ProofStep.isMatch with
  | some step =>
    have same := found
    simp only [added] at same
    simp [settle, same, halt, added]
  | none =>
    have same := found
    simp only [added] at same
    cases complete : (joined s.search size (added s.search checks)).complete total with
    | true =>
      have stopped := complete
      simp only [added] at stopped
      simp [settle, same, stopped, halt, added]
    | false =>
      have stopped := complete
      simp only [added] at stopped
      simp [settle, same, stopped, added]

theorem call_search (o : SearchOptions) (rules : List PreparedRule) (s : Session) :
    (call o rules s).session.search = (batch o rules s).session.search := by
  simp only [call]
  split <;> rfl

theorem call_failure (o : SearchOptions) (rules : List PreparedRule) (s : Session) :
    (call o rules s).failure = (batch o rules s).failure := by
  simp only [call]
  split <;> rfl

theorem call_cancelled (rules : List PreparedRule) (s : Session) (awaited : o.cancelAt = none) :
    (call o rules s).session.cancelled = (batch o rules s).session.cancelled := by
  simp only [call]
  split <;> simp [reachesCancel, awaited]

theorem batch_token (o : SearchOptions) (rules : List PreparedRule) (s : Session)
    (asked : s.cancelled = true) : (batch o rules s).session.cancelled = true := by
  have kept : (replied o rules s).cancelled = true := by simp [replied, asked]
  have turn := batch_turn o rules s
  generalize batch o rules s = t at turn ⊢
  cases turn with
  | halted => exact asked
  | refused => exact asked
  | spent => exact asked
  | failed => exact kept
  | discarded => exact kept
  | settled => exact (settle_cases _ _ _ _ _).2.1.trans kept

theorem call_asked (o : SearchOptions) (rules : List PreparedRule) (s : Session)
    (asked : (batch o rules s).session.cancelled = true) :
    (call o rules s).session.cancelled = true := by
  simp only [call]
  split
  · simp [asked]
  · exact asked

theorem call_token (o : SearchOptions) (rules : List PreparedRule) (s : Session)
    (asked : s.cancelled = true) : (call o rules s).session.cancelled = true :=
  call_asked o rules s (batch_token o rules s asked)

theorem batch_shown (o : SearchOptions) (rules : List PreparedRule) (s : Session) :
    (batch o rules s).progress = [] := by
  have spoken : ∀ session lines, Turn.progress ⟨session, said o lines, none⟩ = [] := by
    intro session lines
    unfold Turn.progress said
    split <;> simp
  have turn := batch_turn o rules s
  generalize batch o rules s = t at turn ⊢
  cases turn with
  | halted => rfl
  | refused => exact spoken _ _
  | spent => rfl
  | failed => rfl
  | discarded => exact spoken _ _
  | settled =>
    simp only [settle]
    split
    · exact spoken _ _
    · split <;> exact spoken _ _

theorem call_shown (o : SearchOptions) (rules : List PreparedRule) (s : Session) :
    (call o rules s).progress =
      if (call o rules s).failure.isNone && completedBatch s (call o rules s).session then
        [(call o rules s).session.search] else [] := by
  have quiet := batch_shown o rules s
  rw [Turn.progress] at quiet
  rw [call_failure, completedBatch, call_search, ← completedBatch]
  simp only [call]
  split
  · rw [Turn.progress, List.filterMap_append, quiet]
    rfl
  · exact quiet

-- So many calls one after the other, with all that they show and the failure that ends
-- them, if one does. No call is made on a search that has halted.
inductive Calls (o : SearchOptions) (rules : List PreparedRule) : Session → Nat → Turn → Prop where
  | idle {s : Session} : Calls o rules s 0 ⟨s, [], none⟩
  | failed {s : Session} (live : s.search.halted = false)
      (fails : (call o rules s).failure.isSome = true) : Calls o rules s 1 (call o rules s)
  | more {s : Session} {n : Nat} {t : Turn} (live : s.search.halted = false)
      (succeeds : (call o rules s).failure = none)
      (later : Calls o rules (call o rules s).session n t) :
      Calls o rules s (n + 1) { t with events := (call o rules s).events ++ t.events }

theorem Calls.append {n m : Nat} {t u : Turn} (first : Calls o rules s n t)
    (succeeds : t.failure = none) (second : Calls o rules t.session m u) :
    Calls o rules s (n + m) { u with events := t.events ++ u.events } := by
  induction first with
  | idle => simpa using second
  | failed live fails => simp [succeeds] at fails
  | @more s n t live ok later ih =>
    have rest := Calls.more live ok (ih succeeds second)
    rw [Nat.add_right_comm]
    simpa only [List.append_assoc] using rest

theorem Calls.of_halted {n : Nat} {t : Turn} (calls : Calls o rules s n t)
    (stopped : s.search.halted = true) : n = 0 ∧ t = ⟨s, [], none⟩ := by
  cases calls with
  | idle => exact ⟨rfl, rfl⟩
  | failed live _ => simp [stopped] at live
  | more live _ _ => simp [stopped] at live

theorem Calls.preserve {P : Session → Prop} {n : Nat} {t : Turn}
    (step : ∀ s, P s → P (call o rules s).session) (calls : Calls o rules s n t)
    (start : P s) : P t.session := by
  induction calls with
  | idle => exact start
  | failed live fails => exact step _ start
  | more live ok later ih => exact ih (step _ start)

theorem Calls.shown {P : Search → Prop} {n : Nat} {t : Turn}
    (step : ∀ s : Session, P s.search → P (call o rules s).session.search)
    (calls : Calls o rules s n t) (start : P s.search) : ∀ shown ∈ t.progress, P shown := by
  have first : ∀ s : Session, P s.search → ∀ shown ∈ (call o rules s).progress, P shown := by
    intro s start shown member
    rw [call_shown] at member
    split at member
    · rw [List.mem_singleton.1 member]
      exact step s start
    · cases member
  induction calls with
  | idle => intro shown member; cases member
  | failed live fails => exact first _ start
  | more live ok later ih =>
    intro shown member
    rw [Turn.progress_append] at member
    cases List.mem_append.1 member with
    | inl own => exact first _ start shown own
    | inr rest => exact ih (step _ start) shown rest

end Session

namespace Feed

open Session

variable {o : SearchOptions} {rules : List PreparedRule} {s : Session}

def counted (o : SearchOptions) (rules : List PreparedRule) (since : Nat) (s : Session) : Nat :=
  if completedBatch s (call o rules s).session then since + 1 else since

def yields (o : SearchOptions) (yieldEvery : Int) (rules : List PreparedRule) (since : Nat)
    (s : Session) : Bool :=
  (call o rules s).session.search.halted || decide (yieldEvery ≤ counted o rules since s) ||
    (call o rules s).session.search.complete rules.length

theorem advanceFrom_succ (o : SearchOptions) (yieldEvery : Int) (rules : List PreparedRule)
    (calls since : Nat) (s : Session) :
    advanceFrom o yieldEvery rules (calls + 1) since s =
      if s.search.halted then ⟨⟨s, [], none⟩, true⟩
      else if (call o rules s).failure.isSome then ⟨call o rules s, true⟩
      else if yields o yieldEvery rules since s then ⟨call o rules s, false⟩
      else prepend (call o rules s).events (advanceFrom o yieldEvery rules calls
        (counted o rules since s) (call o rules s).session) := rfl

theorem advanceFrom_cases (o : SearchOptions) (yieldEvery : Int) (rules : List PreparedRule)
    (calls since : Nat) (s : Session) :
    (s.search.halted = true ∧
      advanceFrom o yieldEvery rules (calls + 1) since s = ⟨⟨s, [], none⟩, true⟩) ∨
    (s.search.halted = false ∧ (call o rules s).failure.isSome = true ∧
      advanceFrom o yieldEvery rules (calls + 1) since s = ⟨call o rules s, true⟩) ∨
    (s.search.halted = false ∧ (call o rules s).failure = none ∧
      yields o yieldEvery rules since s = true ∧
      advanceFrom o yieldEvery rules (calls + 1) since s = ⟨call o rules s, false⟩) ∨
    (s.search.halted = false ∧ (call o rules s).failure = none ∧
      yields o yieldEvery rules since s = false ∧
      advanceFrom o yieldEvery rules (calls + 1) since s =
        prepend (call o rules s).events (advanceFrom o yieldEvery rules calls
          (counted o rules since s) (call o rules s).session)) := by
  rw [advanceFrom_succ]
  cases live : s.search.halted with
  | true => exact .inl ⟨rfl, rfl⟩
  | false =>
    cases failure : (call o rules s).failure with
    | some f => exact .inr (.inl ⟨rfl, rfl, rfl⟩)
    | none =>
      cases stop : yields o yieldEvery rules since s with
      | true => exact .inr (.inr (.inl ⟨rfl, rfl, rfl, rfl⟩))
      | false => exact .inr (.inr (.inr ⟨rfl, rfl, rfl, rfl⟩))

theorem advanceFrom_calls (o : SearchOptions) (yieldEvery : Int) (rules : List PreparedRule)
    (calls since : Nat) (s : Session) :
    ∃ n ≤ calls, Calls o rules s n (advanceFrom o yieldEvery rules calls since s).turn := by
  induction calls generalizing since s with
  | zero => exact ⟨0, Nat.le_refl _, .idle⟩
  | succ calls ih =>
    rcases advanceFrom_cases o yieldEvery rules calls since s with
      ⟨stopped, same⟩ | ⟨live, fails, same⟩ | ⟨live, ok, _, same⟩ | ⟨live, ok, _, same⟩
    · rw [same]
      exact ⟨0, Nat.zero_le _, .idle⟩
    · rw [same]
      exact ⟨1, by omega, .failed live fails⟩
    · rw [same]
      have one := Calls.more live ok .idle
      rw [List.append_nil, ← ok] at one
      exact ⟨1, by omega, one⟩
    · obtain ⟨n, bound, rest⟩ := ih (counted o rules since s) (call o rules s).session
      rw [same]
      exact ⟨n + 1, by omega, .more live ok rest⟩

theorem advance_calls (f : Feed) (rules : List PreparedRule) (s : Session) :
    ∃ n, Calls f.options rules s n (f.advance rules s).2.turn := by
  simp only [advance]
  split
  · exact ⟨0, .idle⟩
  · obtain ⟨n, _, calls⟩ := advanceFrom_calls f.options f.yieldEvery rules
      (callLimit f.yieldEvery) 0 s
    exact ⟨n, calls⟩

theorem advance_options (f : Feed) (rules : List PreparedRule) (s : Session) :
    (f.advance rules s).1.options = f.options := by
  simp only [advance]
  split <;> rfl

theorem advanceFrom_failure (o : SearchOptions) (yieldEvery : Int) (rules : List PreparedRule)
    (calls since : Nat) (s : Session)
    (going : (advanceFrom o yieldEvery rules calls since s).ended = false) :
    (advanceFrom o yieldEvery rules calls since s).turn.failure = none := by
  induction calls generalizing since s with
  | zero => rfl
  | succ calls ih =>
    rcases advanceFrom_cases o yieldEvery rules calls since s with
      ⟨_, same⟩ | ⟨_, _, same⟩ | ⟨_, ok, _, same⟩ | ⟨_, ok, _, same⟩
    · simp [same] at going
    · simp [same] at going
    · rw [same]
      exact ok
    · rw [same] at going ⊢
      exact ih _ _ going

theorem advanceFrom_ended (o : SearchOptions) (yieldEvery : Int) (rules : List PreparedRule)
    (calls since : Nat) (s : Session)
    (ended : (advanceFrom o yieldEvery rules calls since s).ended = true) :
    s.search.halted = true ∨
      (advanceFrom o yieldEvery rules calls since s).turn.failure.isSome = true := by
  induction calls generalizing since s with
  | zero => cases ended
  | succ calls ih =>
    rcases advanceFrom_cases o yieldEvery rules calls since s with
      ⟨stopped, _⟩ | ⟨_, fails, same⟩ | ⟨_, _, _, same⟩ | ⟨_, _, going, same⟩
    · exact .inl stopped
    · rw [same]
      exact .inr fails
    · simp [same] at ended
    · rw [same] at ended ⊢
      simp only [yields, Bool.or_eq_false_iff] at going
      cases ih _ _ ended with
      | inl stopped =>
        rw [going.1.1] at stopped
        cases stopped
      | inr fails => exact .inr fails

theorem advance_failure (f : Feed) (rules : List PreparedRule) (s : Session)
    (going : (f.advance rules s).2.ended = false) : (f.advance rules s).2.turn.failure = none := by
  simp only [advance] at going ⊢
  split at going
  · cases going
  · next unended =>
    rw [if_neg unended]
    exact advanceFrom_failure _ _ _ _ _ _ going

theorem drive_calls (rules : List PreparedRule) (advances : Nat) (f : Feed) (s : Session) :
    ∃ n, Calls f.options rules s n (drive rules advances f s) := by
  induction advances generalizing f s with
  | zero => exact ⟨0, .idle⟩
  | succ advances ih =>
    obtain ⟨n, first⟩ := advance_calls f rules s
    simp only [drive]
    cases going : (f.advance rules s).2.ended with
    | true => exact ⟨n, by simpa using first⟩
    | false =>
      obtain ⟨m, rest⟩ := ih (f.advance rules s).1 (f.advance rules s).2.turn.session
      rw [advance_options] at rest
      exact ⟨n + m, by simpa using first.append (advance_failure f rules s going) rest⟩

end Feed

namespace Session

theorem run_calls (o : SearchOptions) (yieldEvery : Int) (rules : List PreparedRule) (s : Session) :
    ∃ n, Calls o rules s n (run o yieldEvery rules s) :=
  Feed.drive_calls rules _ (.create o yieldEvery) s

end Session
end OperatorCalculus
