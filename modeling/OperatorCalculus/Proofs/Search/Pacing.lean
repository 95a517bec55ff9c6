import OperatorCalculus.Proofs.Search.Act

namespace OperatorCalculus

namespace Session

variable {o : SearchOptions} {rules : List PreparedRule} {s : Session}

-- Nobody cancels the batch, there are rules left for it, and all its checks come back.
structure Completes (o : SearchOptions) (rules : List PreparedRule) (s : Session) : Prop where
  free : (o.watched && s.cancelled) = false
  more : s.search.complete rules.length = false
  answered : ∃ checks, (reply o rules s).checks = .ok checks
  kept : (o.watched && (replied o rules s).cancelled) = false

inductive Outcome (o : SearchOptions) (rules : List PreparedRule) (s : Session) :
    Option Text → Search → Prop where
  | failed {failure : Text} {next : Search} (still : next.batches = s.search.batches)
      (unanswered : ¬ Completes o rules s) : Outcome o rules s (some failure) next
  | refused {next : Search} (still : next.batches = s.search.batches)
      (stopped : next.halted = true) (unfit : ¬ Completes o rules s) : Outcome o rules s none next
  | completed {next : Search} (grown : next.batches = s.search.batches + 1)
      (completes : Completes o rules s)
      (rest : next.halted = true ∨ next.complete rules.length = false) : Outcome o rules s none next

theorem batch_outcome (o : SearchOptions) (rules : List PreparedRule) (live : s.search.halted = false) :
    Outcome o rules s (batch o rules s).failure (batch o rules s).session.search := by
  have turn := batch_turn o rules s
  generalize batch o rules s = t at turn ⊢
  cases turn with
  | halted stopped =>
    rw [live] at stopped
    cases stopped
  | refused _ asked =>
    refine .refused rfl rfl fun completes => ?_
    rw [completes.free] at asked
    cases asked
  | spent _ free complete =>
    refine .refused rfl rfl fun completes => ?_
    rw [completes.more] at complete
    cases complete
  | failed _ free more fails =>
    refine .failed rfl fun completes => ?_
    obtain ⟨checks, answer⟩ := completes.answered
    rw [fails] at answer
    cases answer
  | discarded _ free more answer asked =>
    refine .refused rfl rfl fun completes => ?_
    rw [completes.kept] at asked
    cases asked
  | @settled _ free more checks answer kept =>
    obtain ⟨succeeds, _, outcome⟩ := settle_cases o rules.length (chosen o rules s.search).length
      checks (replied o rules s)
    have completes : Completes o rules s := ⟨free, more, ⟨checks, answer⟩, kept⟩
    rw [succeeds]
    rcases outcome with ⟨_, _, same⟩ | ⟨_, _, same⟩ | ⟨_, left, same⟩ <;> rw [same]
    · exact .completed rfl completes (.inl rfl)
    · exact .completed rfl completes (.inl rfl)
    · exact .completed rfl completes (.inr left)

theorem call_outcome (o : SearchOptions) (rules : List PreparedRule) (live : s.search.halted = false) :
    Outcome o rules s (call o rules s).failure (call o rules s).session.search := by
  rw [call_failure, call_search]
  exact batch_outcome o rules live

theorem completedBatch_iff (live : s.search.halted = false) :
    completedBatch s (call o rules s).session = true ↔ Completes o rules s := by
  have outcome := call_outcome o rules live
  rw [completedBatch]
  generalize (call o rules s).failure = failure at outcome
  cases outcome with
  | failed still unanswered => simp [still, unanswered]
  | refused still stopped unfit => simp [still, unfit]
  | completed grown completes rest => simp [grown, completes]

theorem call_going (live : s.search.halted = false) (succeeds : (call o rules s).failure = none)
    (going : (call o rules s).session.search.halted = false) :
    completedBatch s (call o rules s).session = true ∧
      (call o rules s).session.search.complete rules.length = false := by
  have outcome := call_outcome o rules live
  rw [succeeds] at outcome
  cases outcome with
  | refused still stopped unfit =>
    rw [going] at stopped
    cases stopped
  | completed grown completes rest =>
    rw [going] at rest
    exact ⟨(completedBatch_iff live).2 completes, rest.resolve_left Bool.false_ne_true⟩

theorem call_reports (live : s.search.halted = false) : (call o rules s).progress =
    if completedBatch s (call o rules s).session then [(call o rules s).session.search] else [] := by
  rw [call_shown]
  have outcome := call_outcome o rules live
  generalize (call o rules s).failure = failure at outcome
  cases outcome with
  | failed still unanswered => simp [completedBatch, still]
  | refused still stopped unfit => rfl
  | completed grown completes rest => rfl

-- What is reported of a call: a completed batch, once, with the search that it leaves; and a
-- call that neither fails nor halts the search leaves rules to check.
structure Reported (o : SearchOptions) (rules : List PreparedRule) (s : Session) : Prop where
  progress : (call o rules s).progress =
    if completedBatch s (call o rules s).session then [(call o rules s).session.search] else []
  completed_iff : completedBatch s (call o rules s).session = true ↔ Completes o rules s
  rules_left : (call o rules s).failure = none → (call o rules s).session.search.halted = false →
    (call o rules s).session.search.complete rules.length = false

theorem reported (live : s.search.halted = false) : Reported o rules s :=
  ⟨call_reports live, completedBatch_iff live, fun succeeds going => (call_going live succeeds going).2⟩

def after (o : SearchOptions) (rules : List PreparedRule) : Nat → Session → Session
  | 0, s => s
  | n + 1, s => after o rules n (call o rules s).session

end Session

namespace Feed

open Session

variable {o : SearchOptions} {y : Int} {rules : List PreparedRule} {since n : Nat} {s : Session}
  {a : Advance}

-- The loop of a feed up to its next yield or its end, with the number of its calls. Nothing
-- bounds them but the three conditions under which it yields.
inductive Loop (o : SearchOptions) (y : Int) (rules : List PreparedRule) :
    Nat → Session → Nat → Advance → Prop where
  | ends {since : Nat} {s : Session} (stopped : s.search.halted = true) :
      Loop o y rules since s 0 ⟨⟨s, [], none⟩, true⟩
  | raises {since : Nat} {s : Session} (live : s.search.halted = false)
      (fails : (call o rules s).failure.isSome = true) :
      Loop o y rules since s 1 ⟨call o rules s, true⟩
  | yields {since : Nat} {s : Session} (live : s.search.halted = false)
      (succeeds : (call o rules s).failure = none) (due : yields o y rules since s = true) :
      Loop o y rules since s 1 ⟨call o rules s, false⟩
  | goesOn {since n : Nat} {s : Session} {a : Advance} (live : s.search.halted = false)
      (succeeds : (call o rules s).failure = none) (early : yields o y rules since s = false)
      (later : Loop o y rules (counted o rules since s) (call o rules s).session n a) :
      Loop o y rules since s (n + 1) (prepend (call o rules s).events a)

theorem Loop.unique {m : Nat} {b : Advance} (first : Loop o y rules since s n a)
    (second : Loop o y rules since s m b) : n = m ∧ a = b := by
  induction first generalizing m b with
  | ends stopped =>
    cases second with
    | ends => exact ⟨rfl, rfl⟩
    | raises live => simp [stopped] at live
    | yields live => simp [stopped] at live
    | goesOn live => simp [stopped] at live
  | raises live fails =>
    cases second with
    | ends stopped => simp [stopped] at live
    | raises => exact ⟨rfl, rfl⟩
    | yields _ succeeds => simp [succeeds] at fails
    | goesOn _ succeeds => simp [succeeds] at fails
  | yields live succeeds due =>
    cases second with
    | ends stopped => simp [stopped] at live
    | raises _ fails => simp [succeeds] at fails
    | yields => exact ⟨rfl, rfl⟩
    | goesOn _ _ early => simp [due] at early
  | goesOn live succeeds early later ih =>
    cases second with
    | ends stopped => simp [stopped] at live
    | raises _ fails => simp [succeeds] at fails
    | yields _ _ due => simp [due] at early
    | goesOn _ _ _ rest =>
      obtain ⟨rfl, rfl⟩ := ih rest
      exact ⟨rfl, rfl⟩

theorem counted_of_early (live : s.search.halted = false) (succeeds : (call o rules s).failure = none)
    (early : yields o y rules since s = false) :
    counted o rules since s = since + 1 ∧ (since + 1 : Int) < y := by
  simp only [yields, Bool.or_eq_false_iff, decide_eq_false_iff_not] at early
  obtain ⟨⟨going, few⟩, _⟩ := early
  have grown : counted o rules since s = since + 1 := by
    rw [counted, if_pos (call_going live succeeds going).1]
  rw [grown] at few
  exact ⟨grown, by omega⟩

theorem loop_advanceFrom (o : SearchOptions) (y : Int) (rules : List PreparedRule)
    (calls since : Nat) (s : Session) (fits : since + (calls + 1) = callLimit y) :
    ∃ n, Loop o y rules since s n (advanceFrom o y rules (calls + 1) since s) := by
  induction calls using Nat.strongRecOn generalizing since s with
  | ind calls ih =>
    rcases advanceFrom_cases o y rules calls since s with
      ⟨stopped, same⟩ | ⟨live, fails, same⟩ | ⟨live, succeeds, due, same⟩ | ⟨live, succeeds, early, same⟩
    · exact ⟨0, same ▸ .ends stopped⟩
    · exact ⟨1, same ▸ .raises live fails⟩
    · exact ⟨1, same ▸ .yields live succeeds due⟩
    -- The count of calls runs out only where the advance yields, so it never stops the loop.
    · obtain ⟨grown, few⟩ := counted_of_early live succeeds early
      cases calls with
      | zero =>
        simp only [callLimit] at fits
        omega
      | succ calls =>
        obtain ⟨n, later⟩ := ih calls (Nat.lt_succ_self calls) (counted o rules since s)
          (call o rules s).session (by omega)
        exact ⟨n + 1, same ▸ .goesOn live succeeds early later⟩

structure Round (o : SearchOptions) (rules : List PreparedRule) (limit : Nat) (s : Session) (n : Nat)
    (a : Advance) : Prop where
  limited : n ≤ limit
  -- Only on a halted search is there no call, and no call is made once the search has halted.
  none_iff : n = 0 ↔ s.search.halted = true
  live : ∀ k < n, (after o rules k s).search.halted = false
  -- Only the last call fails, halts the search or is the last one allowed, and it does so.
  succeeds : ∀ k, k + 1 < n → (call o rules (after o rules k s)).failure = none
  last : ∀ k, k + 1 = n → (call o rules (after o rules k s)).failure.isSome = true ∨
    (after o rules n s).search.halted = true ∨ n = limit
  ended_iff : a.ended = true ↔ s.search.halted = true ∨ a.turn.failure.isSome = true
  session : a.turn.session = after o rules n s
  failure : a.turn.failure = if n = 0 then none else (call o rules (after o rules (n - 1) s)).failure
  events : a.turn.events = (List.range n).flatMap fun k => (call o rules (after o rules k s)).events

variable {limit : Nat}

theorem Round.ends (stopped : s.search.halted = true) :
    Round o rules limit s 0 ⟨⟨s, [], none⟩, true⟩ where
  limited := Nat.zero_le limit
  none_iff := by simp [stopped]
  live := nofun
  succeeds := nofun
  last := nofun
  ended_iff := by simp [stopped]
  session := rfl
  failure := rfl
  events := rfl

theorem Round.single {ended : Bool} (room : 0 < limit) (live : s.search.halted = false)
    (fails : ended = (call o rules s).failure.isSome)
    (last : ended = true ∨ (call o rules s).session.search.halted = true ∨ 1 = limit) :
    Round o rules limit s 1 ⟨call o rules s, ended⟩ where
  limited := room
  none_iff := by simp [live]
  live := by
    intro k less
    obtain rfl : k = 0 := by omega
    exact live
  succeeds := by
    intro k less
    omega
  last := by
    intro k same
    obtain rfl : k = 0 := by omega
    rwa [fails] at last
  ended_iff := by simp [live, fails]
  session := rfl
  failure := rfl
  events := (List.append_nil _).symm

theorem Round.goesOn (live : s.search.halted = false) (succeeds : (call o rules s).failure = none)
    (going : (call o rules s).session.search.halted = false)
    (round : Round o rules limit (call o rules s).session n a) :
    Round o rules (limit + 1) s (n + 1) (prepend (call o rules s).events a) := by
  obtain ⟨m, rfl⟩ : ∃ m, n = m + 1 := by
    refine Nat.exists_eq_succ_of_ne_zero fun none => ?_
    rw [round.none_iff.1 none] at going
    cases going
  exact {
    limited := Nat.succ_le_succ round.limited
    none_iff := by simp [live]
    live := by
      intro k less
      cases k with
      | zero => exact live
      | succ k => exact round.live k (Nat.lt_of_succ_lt_succ less)
    succeeds := by
      intro k less
      cases k with
      | zero => exact succeeds
      | succ k => exact round.succeeds k (Nat.lt_of_succ_lt_succ less)
    last := by
      intro k same
      obtain rfl : k = m + 1 := by omega
      exact (round.last m rfl).imp id (Or.imp id fun all => by rw [all])
    ended_iff := by
      have inner := round.ended_iff
      rw [going] at inner
      rw [live]
      exact inner
    session := round.session
    failure := round.failure
    events := by
      have inner := round.events
      rw [List.range_succ_eq_map, List.flatMap_cons, List.flatMap_map]
      exact congrArg ((call o rules s).events ++ ·) inner }

theorem Loop.round (loop : Loop o y rules since s n a) (room : since < callLimit y) :
    Round o rules (callLimit y - since) s n a := by
  induction loop with
  | ends stopped => exact .ends stopped
  | raises live fails => exact .single (by omega) live fails.symm (.inl rfl)
  | @yields since s live succeeds due =>
    refine .single (by omega) live (by rw [succeeds]; rfl) (.inr ?_)
    cases going : (call o rules s).session.search.halted with
    | true => exact .inl rfl
    | false =>
      obtain ⟨grown, left⟩ := call_going live succeeds going
      simp only [Feed.yields, going, left, counted, grown, if_true, Bool.false_or, Bool.or_false,
        decide_eq_true_eq] at due
      simp only [callLimit] at room ⊢
      right
      omega
  | @goesOn since n s a live succeeds early later ih =>
    obtain ⟨grown, few⟩ := counted_of_early live succeeds early
    have going : (call o rules s).session.search.halted = false := by
      simp only [Feed.yields, Bool.or_eq_false_iff] at early
      exact early.1.1
    have enough : since + 1 < callLimit y := by
      simp only [callLimit]
      omega
    rw [grown] at ih
    have limit_eq : callLimit y - since = callLimit y - (since + 1) + 1 := by omega
    rw [limit_eq]
    exact .goesOn live succeeds going (ih enough)

theorem advance_loop_iff (f : Feed) (unended : f.ended = false) (rules : List PreparedRule)
    (s : Session) :
    (∃ n, Loop f.options f.yieldEvery rules 0 s n a) ↔ a = (f.advance rules s).2 := by
  have own : ∃ n, Loop f.options f.yieldEvery rules 0 s n (f.advance rules s).2 := by
    obtain ⟨calls, limit⟩ := callLimit_pos f.yieldEvery
    simp only [advance, unended, Bool.false_eq_true, if_false, limit]
    exact loop_advanceFrom f.options f.yieldEvery rules calls 0 s (by omega)
  constructor
  · rintro ⟨n, loop⟩
    obtain ⟨m, other⟩ := own
    exact (loop.unique other).2
  · rintro rfl
    exact own

end Feed

theorem Act.perform_of_halted (a : Act) (rules : List PreparedRule) {s : Session}
    (stopped : s.search.halted = true) : (a.perform rules s).session.search = s.search := by
  rcases Act.perform_cases rules s a with ⟨o, _, same⟩ | ⟨o, n, _, calls⟩ | ⟨token, rfl⟩
  · rw [same, Session.batch_of_halted o rules stopped]
  · rw [(calls.of_halted stopped).2]
  · rfl

structure Shared where
  feed : Feed
  session : Session
  raised : Bool

namespace Shared

-- Between two advances of the feed anyone may do anything with its session, with the token
-- and for other rules too.
inductive Move where
  | advance
  | other (rules : List PreparedRule) (act : Act)

open Session Feed

def advance (rules : List PreparedRule) (w : Shared) : Advance := (w.feed.advance rules w.session).2

def move (rules : List PreparedRule) (w : Shared) : Move → Shared
  | .advance =>
    ⟨(w.feed.advance rules w.session).1, (w.advance rules).turn.session,
      w.raised || (w.advance rules).turn.failure.isSome⟩
  | .other rules' act => { w with session := (act.perform rules' w.session).session }

def reached (o : SearchOptions) (y : Int) (rules : List PreparedRule) (s : Session)
    (moves : List Move) : Shared :=
  moves.foldl (move rules) ⟨.create o y, s, false⟩

-- A feed ends by a failure or because it was advanced on a halted search, which stays halted.
structure Steady (o : SearchOptions) (y : Int) (w : Shared) : Prop where
  options : w.feed.options = o
  yieldEvery : w.feed.yieldEvery = y
  finished : w.raised = true → w.feed.ended = true
  ended : w.feed.ended = true → w.raised = true ∨ w.session.search.halted = true

variable {o : SearchOptions} {y : Int} {rules : List PreparedRule} {w : Shared}

theorem advance_of_ended (ended : w.feed.ended = true) :
    w.feed.advance rules w.session = (w.feed, ⟨⟨w.session, [], none⟩, true⟩) := by
  rw [Feed.advance, if_pos ended]

theorem Steady.round (steady : Steady o y w) (sound : w.raised = false) :
    ∃ n, Loop o y rules 0 w.session n (w.advance rules) ∧
      Round o rules (callLimit y) w.session n (w.advance rules) := by
  cases ended : w.feed.ended with
  | true =>
    have stopped := (steady.ended ended).resolve_left (by simp [sound])
    rw [advance, advance_of_ended ended]
    exact ⟨0, .ends stopped, .ends stopped⟩
  | false =>
    obtain ⟨n, loop⟩ := (advance_loop_iff w.feed ended rules w.session).2 rfl
    rw [steady.options, steady.yieldEvery] at loop
    obtain ⟨calls, limit⟩ := callLimit_pos y
    exact ⟨n, loop, loop.round (by omega)⟩

theorem Steady.move (steady : Steady o y w) (m : Move) : Steady o y (w.move rules m) := by
  cases m with
  | other rules' act =>
    refine ⟨steady.options, steady.yieldEvery, steady.finished, fun ended => ?_⟩
    refine (steady.ended ended).imp id fun stopped => ?_
    rw [Shared.move, act.perform_of_halted rules' stopped]
    exact stopped
  | advance =>
    cases ended : w.feed.ended with
    | true =>
      have same : w.move rules .advance = w := by
        simp [Shared.move, Shared.advance, advance_of_ended ended]
      rw [same]
      exact steady
    | false =>
      have sound : w.raised = false := by
        cases raised : w.raised with
        | false => rfl
        | true => rw [steady.finished raised] at ended; cases ended
      obtain ⟨n, _, round⟩ := @Steady.round o y rules w steady sound
      have next : (w.feed.advance rules w.session).1 =
          { w.feed with ended := (w.advance rules).ended } := by
        simp [Feed.advance, Shared.advance, ended]
      simp only [Shared.move, next, sound, Bool.false_or]
      refine ⟨steady.options, steady.yieldEvery, fun raised => ?_, fun stops => ?_⟩
      · exact round.ended_iff.2 (.inr raised)
      · rcases round.ended_iff.1 stops with stopped | raised
        · rw [round.session, round.none_iff.2 stopped]
          exact .inr stopped
        · exact .inl raised

theorem reached_steady (o : SearchOptions) (y : Int) (rules : List PreparedRule) (s : Session)
    (moves : List Move) : Steady o y (reached o y rules s moves) :=
  List.foldlRecOn (motive := Steady o y) moves _ ⟨rfl, rfl, nofun, nofun⟩
    fun _ steady m _ => steady.move m

-- At whatever state the others leave the search: an advance makes calls until the first one
-- that fails, halts the search or is the last one allowed, each completed batch is reported
-- once with the search that it leaves, and the feed ends on a halted search only.
theorem advances_paced (o : SearchOptions) (y : Int) (rules : List PreparedRule) (s : Session)
    (moves : List Move) :
    ((reached o y rules s moves).raised = true →
      (reached o y rules s moves).advance rules =
        ⟨⟨(reached o y rules s moves).session, [], none⟩, true⟩) ∧
    ((reached o y rules s moves).raised = false →
      ∃ n, Loop o y rules 0 (reached o y rules s moves).session n
          ((reached o y rules s moves).advance rules) ∧
        Round o rules (max 1 y).toNat (reached o y rules s moves).session n
          ((reached o y rules s moves).advance rules) ∧
        ∀ k < n, Reported o rules (after o rules k (reached o y rules s moves).session)) := by
  have steady := reached_steady o y rules s moves
  generalize reached o y rules s moves = w at steady
  refine ⟨fun raised => ?_, fun sound => ?_⟩
  · rw [advance, advance_of_ended (steady.finished raised)]
  · obtain ⟨n, loop, round⟩ := @Steady.round o y rules w steady sound
    exact ⟨n, loop, round, fun k less => reported (round.live k less)⟩

theorem advances_paced_beside_batch :
    let rules := PreparedRule.all [Rule.between [',', 'i'] [',', '7'],
      Rule.between [',', 'i'] [',', 'j'], Rule.between [',', 'i'] [',', 'i']]
    let o : SearchOptions := ⟨1, false, false, none, .inTurn⟩
    let fresh : Session := ⟨.begin [',', 'a', 'b'] [',', 'c'], false⟩
    let w := reached o 2 rules fresh [.other rules (.batch o), .advance]
    w.raised = false ∧ w.session.search.history.length = 3 ∧ (w.advance rules).ended = true := by
  intro rules o fresh w
  have sound : w.raised = false := by decide +kernel
  have stopped : w.session.search.halted = true := by decide +kernel
  have batches : w.session.search.history.length = 3 := by decide +kernel
  obtain ⟨n, _, round, _⟩ := (advances_paced o 2 rules fresh _).2 sound
  exact ⟨sound, batches, round.ended_iff.2 (.inl stopped)⟩

end Shared
end OperatorCalculus
