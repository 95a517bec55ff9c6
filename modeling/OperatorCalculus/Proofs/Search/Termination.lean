import OperatorCalculus.Proofs.Search.Schedule
import OperatorCalculus.Proofs.Search.Verdict

namespace OperatorCalculus

-- Replies may be shuffled, but every fan-out answers and nobody cancels the token.
structure SearchOptions.Uncancelled (o : SearchOptions) : Prop where
  awaited : o.cancelAt = none
  shuffles : o.fanOut.Shuffles
  answers : o.fanOut.Answers

namespace Search

-- Where a batch of that size leaves the cursor. The end of a batch before the first rule is
-- counted from the end of the rules, and a batch that ends before it begins is empty.
def nextCursor (rules : Nat) (size : Int) (cursor : Nat) : Nat :=
  max cursor (Slice.place rules (cursor + size))

-- A size of zero or below takes off as many rules as there are beyond it, again and again,
-- as long as the cursor is not as far as the size without its sign.
def reach (rules : Nat) (size : Int) : Nat :=
  if 0 < size then rules
  else (rules - size.natAbs) * ((size.natAbs + (rules - size.natAbs) - 1) / (rules - size.natAbs))

variable {rules : Nat} {size : Int}

theorem le_nextCursor (rules : Nat) (size : Int) (cursor : Nat) :
    cursor ≤ nextCursor rules size cursor := Nat.le_max_left _ _

theorem nextCursor_of_pos (positive : 0 < size) (steps : Nat) :
    (nextCursor rules size)^[steps] 0 = min (steps * size.toNat) rules := by
  induction steps with
  | zero => simp
  | succ steps ih =>
    rw [Function.iterate_succ_apply', ih, Nat.succ_mul]
    simp only [nextCursor, Slice.place]
    rw [if_neg (by omega)]
    omega

theorem nextCursor_of_nonpos (nonpos : size ≤ 0) {first rounds : Nat}
    (beyond : first = rules - size.natAbs) (count : rounds = (size.natAbs + first - 1) / first)
    (steps : Nat) : (nextCursor rules size)^[steps] 0 = first * min steps rounds := by
  induction steps with
  | zero => simp
  | succ steps ih =>
    rw [Function.iterate_succ_apply', ih]
    simp only [nextCursor, Slice.place]
    by_cases none : first = 0
    · subst none
      split <;> omega
    · have some : 0 < first := Nat.pos_of_ne_zero none
      by_cases more : steps < rounds
      · -- The cursor is not as far as the size: the end of the batch is counted from the end.
        have before : first * steps < size.natAbs := by
          have room : (steps + 1) * first ≤ size.natAbs + first - 1 :=
            (Nat.le_div_iff_mul_le some).1 (by omega)
          rw [Nat.succ_mul, Nat.mul_comm] at room
          omega
        have round : first * (steps + 1) = first * steps + first := Nat.mul_succ _ _
        rw [Nat.min_eq_left (Nat.le_of_lt more), Nat.min_eq_left more, round, if_pos (by omega)]
        omega
      · have enough : size.natAbs ≤ first * rounds := by
          have passed : size.natAbs + first - 1 < (rounds + 1) * first :=
            (Nat.div_lt_iff_lt_mul some).1 (by omega)
          rw [Nat.succ_mul, Nat.mul_comm] at passed
          omega
        have past : rounds ≤ steps := Nat.le_of_not_lt more
        rw [Nat.min_eq_right past, Nat.min_eq_right (Nat.le_succ_of_le past), if_neg (by omega)]
        omega

theorem reach_lt (nonpos : size ≤ 0) (some : 0 < rules) : reach rules size < rules := by
  rw [reach, if_neg (by omega)]
  by_cases none : rules - size.natAbs = 0
  · rw [none]
    omega
  · have bound := Nat.mul_div_le (size.natAbs + (rules - size.natAbs) - 1) (rules - size.natAbs)
    omega

theorem nextCursor_le_reach (rules : Nat) (size : Int) (steps : Nat) :
    (nextCursor rules size)^[steps] 0 ≤ reach rules size := by
  unfold reach
  split
  · next positive =>
    rw [nextCursor_of_pos positive]
    exact Nat.min_le_right _ _
  · next nonpos =>
    rw [nextCursor_of_nonpos (by omega) rfl rfl]
    exact Nat.mul_le_mul_left _ (Nat.min_le_right _ _)

theorem exists_nextCursor_eq_reach (rules : Nat) (size : Int) :
    ∃ steps, (nextCursor rules size)^[steps] 0 = reach rules size := by
  unfold reach
  split
  · next positive =>
    refine ⟨rules, ?_⟩
    have enough : rules * 1 ≤ rules * size.toNat := Nat.mul_le_mul_left _ (by omega)
    rw [nextCursor_of_pos positive]
    omega
  · next nonpos =>
    refine ⟨(size.natAbs + (rules - size.natAbs) - 1) / (rules - size.natAbs), ?_⟩
    rw [nextCursor_of_nonpos (by omega) rfl rfl, Nat.min_self]

end Search

namespace Sequential

variable {target : Sides} {rules : List PreparedRule}

theorem length_search_le (target : Sides) (number : Nat) (rules : List PreparedRule) :
    (search target number rules).length ≤ 2 * rules.length := by
  induction rules generalizing number with
  | nil => exact Nat.zero_le _
  | cons p rest ih =>
    have deeper := ih (number + 2)
    rcases search_cases target p number with ⟨_, same⟩ | ⟨_, _, same⟩ | ⟨_, _, same⟩ <;>
      rw [same] <;> simp only [List.length_cons, List.length_nil] <;> omega

theorem finds_take_mono {c d : Nat} (before : c ≤ d) (found : Finds (search target 1 (rules.take c))) :
    Finds (search target 1 (rules.take d)) := by
  have front : rules.take d = rules.take c ++ (rules.take d).drop c := by
    have start : (rules.take d).take c = rules.take c := by
      rw [List.take_take, Nat.min_eq_left before]
    rw [← start, List.take_append_drop]
  rw [front, search_of_found _ found]
  exact found

end Sequential

namespace Session

open Search OperatorCalculus.Sequential

variable {target : Sides} {rules : List PreparedRule} {o : SearchOptions} {s : Session}

def Ends (o : SearchOptions) (rules : List PreparedRule) (s : Session) : Prop :=
  ∃ calls t, Calls o rules s calls t ∧ t.session.search.halted = true

def Done (target : Sides) (rules : List PreparedRule) (cursor : Nat) : Prop :=
  rules.length ≤ cursor ∨ Finds (Sequential.search target 1 (rules.take cursor))

theorem Done.mono {c d : Nat} (before : c ≤ d) (done : Done target rules c) : Done target rules d :=
  done.imp (fun all => Nat.le_trans all before) (finds_take_mono before)

theorem cursor_add_chosen (o : SearchOptions) (rules : List PreparedRule) (s : Search) :
    s.cursor + (chosen o rules s).length = nextCursor rules.length o.batchSize s.cursor := by
  rw [chosen, Slice.length_upTo, nextCursor]
  omega

theorem Tracks.done_of_halted (tracks : Tracks target rules s) (stopped : s.search.halted = true) :
    Done target rules s.search.cursor := by
  have steps := tracks.follows.steps
  rw [tracks.aim] at steps
  rcases tracks.course with running | hit | spent | ⟨_, asked⟩
  · rw [Search.halted, running] at stopped
    cases stopped
  · have found := tracks.follows.found.1 hit
    rw [steps] at found
    exact .inr found
  · exact .inl (Nat.le_of_eq (tracks.follows.spent spent).symm)
  · rw [tracks.uncancelled] at asked
    cases asked

theorem call_cursor (calm : o.Uncancelled) (tracks : Tracks target rules s)
    (live : s.search.halted = false) :
    (call o rules s).session.search.cursor = nextCursor rules.length o.batchSize s.search.cursor ∧
      ((call o rules s).session.search.halted = false →
        (call o rules s).session.search.cursor < rules.length) := by
  have untouched : (replied o rules s).search = s.search := rfl
  have free : (o.watched && (replied o rules s).cancelled) = false := by
    simp [replied, tracks.uncancelled, reply, (calm.shuffles _ _).1]
  have unasked : (o.watched && s.cancelled) = false := by simp [tracks.uncancelled]
  rw [call_search, ← cursor_add_chosen]
  have turn := batch_turn o rules s
  generalize batch o rules s = t at turn ⊢
  cases turn with
  | halted stopped =>
    rw [live] at stopped
    cases stopped
  | refused _ asked =>
    rw [unasked] at asked
    cases asked
  | spent _ _ complete =>
    have all := (Search.complete_iff _ _).1 complete
    have place := Slice.place_le rules.length (s.search.cursor + o.batchSize)
    refine ⟨?_, fun running => by cases running⟩
    rw [chosen, Slice.length_upTo]
    change s.search.cursor = s.search.cursor +
      (Slice.place rules.length (s.search.cursor + o.batchSize) - s.search.cursor)
    omega
  | failed _ _ _ fails =>
    obtain ⟨answer, given⟩ := calm.answers (s.search.batches + 1)
      ((chosen o rules s.search).map (Check.of s.search.target))
    rw [reply, given] at fails
    cases fails
  | discarded _ _ _ _ asked =>
    rw [free] at asked
    cases asked
  | @settled _ _ more checks answer kept =>
    obtain ⟨_, _, outcome⟩ := settle_cases o rules.length (chosen o rules s.search).length
      checks (replied o rules s)
    rw [untouched] at outcome
    rcases outcome with ⟨_, _, same⟩ | ⟨_, _, same⟩ | ⟨_, rest, same⟩
    · rw [same]
      exact ⟨rfl, fun running => by cases running⟩
    · rw [same]
      exact ⟨rfl, fun running => by cases running⟩
    · rw [same]
      refine ⟨rfl, fun _ => ?_⟩
      rw [← Bool.not_eq_true, Search.complete_iff] at rest
      exact Nat.lt_of_not_le rest

theorem call_halts_iff (calm : o.Uncancelled) (ordered : PreparedRule.InOrder rules)
    (tracks : Tracks target rules s) (live : s.search.halted = false) :
    (call o rules s).session.search.halted = true ↔
      Done target rules (nextCursor rules.length o.batchSize s.search.cursor) := by
  obtain ⟨cursor, going⟩ := call_cursor calm tracks live
  have after := call_tracks tracks ordered calm.awaited calm.shuffles
  constructor
  · intro stopped
    rw [← cursor]
    exact after.done_of_halted stopped
  · intro done
    cases halts : (call o rules s).session.search.halted with
    | true => rfl
    | false =>
      rw [← cursor] at done
      rcases done with all | found
      · exact absurd (going halts) (Nat.not_lt.2 all)
      · obtain ⟨steps, unfound⟩ := after.live halts
        rw [steps] at unfound
        exact absurd found unfound

theorem ends_iff (calm : o.Uncancelled) (ordered : PreparedRule.InOrder rules)
    (tracks : Tracks target rules s) : Ends o rules s ↔
      ∃ k, Done target rules ((nextCursor rules.length o.batchSize)^[k] s.search.cursor) := by
  constructor
  · intro ends
    obtain ⟨n, t, calls, stopped⟩ := ends
    induction calls with
    | idle => exact ⟨0, tracks.done_of_halted stopped⟩
    | failed live fails =>
      rw [call_succeeds calm.answers] at fails
      cases fails
    | @more s n t live ok later ih =>
      obtain ⟨k, done⟩ := ih (call_tracks tracks ordered calm.awaited calm.shuffles) stopped
      rw [(call_cursor calm tracks live).1] at done
      exact ⟨k + 1, done⟩
  · intro reached
    obtain ⟨k, done⟩ := reached
    induction k generalizing s with
    | zero =>
      cases live : s.search.halted with
      | true => exact ⟨0, _, .idle, live⟩
      | false =>
        have stops := (call_halts_iff calm ordered tracks live).2 (done.mono (le_nextCursor _ _ _))
        exact ⟨1, _, .more live (call_succeeds calm.answers rules s) .idle, stops⟩
    | succ k ih =>
      cases live : s.search.halted with
      | true => exact ⟨0, _, .idle, live⟩
      | false =>
        rw [Function.iterate_succ_apply, ← (call_cursor calm tracks live).1] at done
        obtain ⟨n, t, later, stopped⟩ :=
          ih (call_tracks tracks ordered calm.awaited calm.shuffles) done
        exact ⟨n + 1, _, .more live (call_succeeds calm.answers rules s) later, stopped⟩

-- A run that has an end makes headway with every call: a call that moved nothing would
-- be followed by others like it.
theorem closing_of_ends (calm : o.Uncancelled) (ordered : PreparedRule.InOrder rules) :
    Closing o rules fun s => Tracks target rules s ∧ Ends o rules s := by
  refine ⟨fun s start => ?_, fun s start live _ => ?_⟩
  · obtain ⟨tracks, n, t, calls, stopped⟩ := start
    have after := call_tracks tracks ordered calm.awaited calm.shuffles
    refine ⟨after, ?_⟩
    cases calls with
    | idle =>
      refine ⟨0, _, .idle, ?_⟩
      rw [call_search, batch_of_halted o rules stopped]
      exact stopped
    | failed _ fails =>
      rw [call_succeeds calm.answers] at fails
      cases fails
    | more _ _ later => exact ⟨_, _, later, stopped⟩
  · obtain ⟨tracks, ends⟩ := start
    obtain ⟨cursor, going⟩ := call_cursor calm tracks live
    simp only [left, live, Bool.false_eq_true, if_false]
    split
    · omega
    · next running =>
      rw [Bool.not_eq_true] at running
      have inside := going running
      have moved : s.search.cursor ≠ (call o rules s).session.search.cursor := by
        intro still
        have fixed : nextCursor rules.length o.batchSize s.search.cursor = s.search.cursor := by
          rw [← cursor, ← still]
        obtain ⟨k, done⟩ := (ends_iff calm ordered tracks).1 ends
        rw [Function.iterate_fixed fixed, ← fixed, ← call_halts_iff calm ordered tracks live,
          running] at done
        cases done
      have forward := le_nextCursor rules.length o.batchSize s.search.cursor
      rw [← cursor] at forward
      omega

theorem done_reach_iff (rules : List Rule) (start goal : Text) (size : Int) :
    Done (Sequential.target start goal) (PreparedRule.all rules) (reach rules.length size) ↔
      rules = [] ∨ 0 < size ∨ ∃ r ∈ rules.take (reach rules.length size), r.Accepts start goal := by
  have front : (PreparedRule.all rules).take (reach rules.length size) =
      PreparedRule.all (rules.take (reach rules.length size)) := by
    refine List.ext_getElem? fun i => ?_
    simp only [PreparedRule.all, List.getElem?_take, List.getElem?_mapIdx]
    split <;> rfl
  have found : Finds (Sequential.steps (rules.take (reach rules.length size)) start goal) ↔
      ∃ r ∈ rules.take (reach rules.length size), r.Accepts start goal := finds_steps_iff
  rw [Done, front, PreparedRule.length_all, ← Sequential.steps, found, ← or_assoc]
  refine or_congr_left ⟨fun all => ?_, fun none => ?_⟩
  · by_cases empty : rules = []
    · exact .inl empty
    · refine .inr (Int.not_le.1 fun nonpos => ?_)
      have short := reach_lt nonpos (List.length_pos_iff.2 empty)
      omega
  · rcases none with empty | positive
    · rw [empty]
      exact Nat.zero_le _
    · rw [reach, if_pos positive]

theorem ends_begin_iff (calm : o.Uncancelled) (rules : List Rule) (start goal : Text) :
    Ends o (PreparedRule.all rules) ⟨.begin start goal, false⟩ ↔
      Search.Blank start goal ∨ rules = [] ∨ 0 < o.batchSize ∨
        ∃ r ∈ rules.take (reach rules.length o.batchSize), r.Accepts start goal := by
  by_cases blank : Search.Blank start goal
  · have stopped := (Search.begin_of_blank blank).1
    exact ⟨fun _ => .inl blank, fun _ => ⟨0, _, .idle, stopped⟩⟩
  · have tracks : Tracks (Sequential.target start goal) (PreparedRule.all rules)
        ⟨.begin start goal, false⟩ := begin_tracks (Search.begin_of_text blank)
    have fresh : (Search.begin start goal).cursor = 0 := by
      unfold Search.begin
      simp only
      split
      · rfl
      · split <;> rfl
    rw [ends_iff calm (PreparedRule.all_inOrder rules) tracks, fresh, PreparedRule.length_all,
      ← done_reach_iff, or_iff_right blank]
    constructor
    · intro reached
      obtain ⟨k, done⟩ := reached
      exact done.mono (nextCursor_le_reach _ _ _)
    · intro done
      obtain ⟨k, far⟩ := exists_nextCursor_eq_reach rules.length o.batchSize
      exact ⟨k, far ▸ done⟩

theorem length_steps_le (calm : o.Uncancelled) (rules : List Rule) (start goal : Text) {n : Nat}
    {t : Turn} (calls : Calls o (PreparedRule.all rules) ⟨.begin start goal, false⟩ n t) :
    t.session.search.steps.length ≤ 2 * rules.length := by
  by_cases blank : Search.Blank start goal
  · obtain ⟨stopped, result⟩ := Search.begin_of_blank blank
    have none : (Search.begin start goal).steps = [] := congrArg SearchResult.steps result
    rw [(calls.of_halted stopped).2, none]
    exact Nat.zero_le _
  · have tracks : Tracks (Sequential.target start goal) (PreparedRule.all rules)
        ⟨.begin start goal, false⟩ := begin_tracks (Search.begin_of_text blank)
    have later : Tracks (Sequential.target start goal) (PreparedRule.all rules) t.session :=
      calls.preserve (fun _ before =>
        call_tracks before (PreparedRule.all_inOrder rules) calm.awaited calm.shuffles) tracks
    have bound := length_search_le t.session.search.target 1
      ((PreparedRule.all rules).take t.session.search.cursor)
    rw [← later.follows.steps, List.length_take, PreparedRule.length_all] at bound
    omega

theorem run_halted_iff (calm : o.Uncancelled) (rules : List Rule) (start goal : Text)
    (yieldEvery : Int) :
    (run o yieldEvery (PreparedRule.all rules) ⟨.begin start goal, false⟩).session.search.halted =
        true ↔ Ends o (PreparedRule.all rules) ⟨.begin start goal, false⟩ := by
  obtain ⟨n, calls⟩ := run_calls o yieldEvery (PreparedRule.all rules) ⟨.begin start goal, false⟩
  constructor
  · intro stopped
    exact ⟨n, _, calls, stopped⟩
  · intro ends
    by_cases blank : Search.Blank start goal
    · have stopped := (Search.begin_of_blank blank).1
      rw [(calls.of_halted stopped).2]
      exact stopped
    · have tracks : Tracks (Sequential.target start goal) (PreparedRule.all rules)
          ⟨.begin start goal, false⟩ := begin_tracks (Search.begin_of_text blank)
      exact run_closes (closing_of_ends calm (PreparedRule.all_inOrder rules)) ⟨tracks, ends⟩
        yieldEvery (run_succeeds calm.answers yieldEvery _ _)

-- A run ends when its batches take rules. When their size is zero or below, it ends just
-- when one of the first rules, which never are all of them, is accepted.
theorem run_terminates_iff (rules : List Rule) (start goal : Text) (o : SearchOptions)
    (calm : o.Uncancelled) (yieldEvery : Int) :
    let forms := PreparedRule.all rules
    let s : Session := ⟨.begin start goal, false⟩
    (Ends o forms s ↔ Search.Blank start goal ∨ rules = [] ∨ 0 < o.batchSize ∨
      ∃ r ∈ rules.take (reach rules.length o.batchSize), r.Accepts start goal) ∧
    (o.batchSize ≤ 0 → rules ≠ [] → reach rules.length o.batchSize < rules.length) ∧
    ((run o yieldEvery forms s).session.search.halted = true ↔ Ends o forms s) ∧
    ∀ calls t, Calls o forms s calls t → t.session.search.steps.length ≤ 2 * rules.length := by
  intro forms s
  refine ⟨ends_begin_iff calm rules start goal, fun nonpos some => ?_,
    run_halted_iff calm rules start goal yieldEvery,
    fun calls t made => length_steps_le calm rules start goal made⟩
  exact reach_lt nonpos (List.length_pos_iff.2 some)

-- Batches without rules never come to the rule that the target is.
theorem not_run_terminates : ¬ ∀ (rules : List Rule) (start goal : Text) (size : Int),
    Ends ⟨size, false, true, none, .inTurn⟩ (PreparedRule.all rules)
      ⟨.begin start goal, false⟩ := by
  intro always
  have calm : SearchOptions.Uncancelled ⟨0, false, true, none, .inTurn⟩ :=
    ⟨rfl, FanOut.inTurn_shuffles, FanOut.inTurn_answers⟩
  have ends := always [Rule.between ", i \\Pu,".toList ", i \\Os,".toList] ", i \\Pu,".toList
    ", i \\Os,".toList 0
  rcases (ends_begin_iff calm _ _ _).1 ends with blank | none | positive | ⟨r, member, _⟩
  · rcases blank with empty | empty <;> cases empty
  · cases none
  · cases positive
  · cases member

theorem run_terminates_iff_backwards :
    let o : SearchOptions := ⟨-2, false, true, none, .backwards⟩
    let rules := List.replicate 5 (Rule.between [',', 'i'] [',', 'j'])
    o.Uncancelled ∧ reach rules.length o.batchSize = 3 ∧
      (Ends o (PreparedRule.all rules) ⟨.begin [',', 'a'] [',', 'b'], false⟩ ↔
        Search.Blank [',', 'a'] [',', 'b'] ∨ rules = [] ∨ 0 < o.batchSize ∨
          ∃ r ∈ rules.take (reach rules.length o.batchSize), r.Accepts [',', 'a'] [',', 'b']) := by
  intro o rules
  have calm : o.Uncancelled :=
    ⟨rfl, FanOut.backwards_shuffles, fun _ checks => ⟨checks.reverse, rfl⟩⟩
  exact ⟨calm, by decide, (run_terminates_iff rules _ _ o calm 5).1⟩

end Session
end OperatorCalculus
