import OperatorCalculus.Proofs.Search.Tracking

namespace OperatorCalculus

namespace Session

variable {target : Sides} {rules : List PreparedRule} {o : SearchOptions} {s : Session}

theorem length_chosen (positive : 0 < o.batchSize) (search : Search) :
    (chosen o rules search).length = min o.batchSize.toNat (rules.length - search.cursor) := by
  have place : Slice.place rules.length (search.cursor + o.batchSize) =
      min (search.cursor + o.batchSize.toNat) rules.length := by
    rw [Slice.place, if_neg (by omega)]
    congr 1
    omega
  rw [chosen, Slice.length_upTo, place]
  omega

theorem call_progress (positive : 0 < o.batchSize) (succeeds : (call o rules s).failure = none) :
    (call o rules s).session.search.halted = true ∨
      ((call o rules s).session.search.cursor = s.search.cursor + o.batchSize.toNat ∧
        (call o rules s).session.search.cursor < rules.length) := by
  have untouched : (replied o rules s).search = s.search := rfl
  rw [call_search]
  rw [call_failure] at succeeds
  have turn := batch_turn o rules s
  generalize batch o rules s = t at turn succeeds ⊢
  cases turn with
  | halted stopped => exact .inl stopped
  | refused live asked => exact .inl rfl
  | spent live free complete => exact .inl rfl
  | failed live free more fails => cases succeeds
  | discarded live free more answer asked => exact .inl rfl
  | @settled live free more checks answer kept =>
    obtain ⟨_, _, outcome⟩ := settle_cases o rules.length (chosen o rules s.search).length
      checks (replied o rules s)
    rcases outcome with ⟨_, _, same⟩ | ⟨_, _, same⟩ | ⟨_, rest, same⟩
    · rw [same]
      exact .inl rfl
    · rw [same]
      exact .inl rfl
    · right
      rw [same, untouched]
      rw [untouched] at rest
      have before : ¬ rules.length ≤ s.search.cursor + (chosen o rules s.search).length := by
        intro all
        rw [(Search.complete_iff _ _).2 all] at rest
        cases rest
      have size := @length_chosen rules o positive s.search
      refine ⟨?_, by simpa [joined] using before⟩
      simp only [joined]
      omega

-- What is left of a search: nothing once it has halted, else the unchecked rules and
-- the halt itself.
def left (rules : List PreparedRule) (s : Session) : Nat :=
  if s.search.halted then 0 else rules.length - s.search.cursor + 1

structure Closing (o : SearchOptions) (rules : List PreparedRule) (P : Session → Prop) : Prop where
  kept : ∀ s, P s → P (call o rules s).session
  less : ∀ s, P s → s.search.halted = false → (call o rules s).failure = none →
    left rules (call o rules s).session < left rules s

theorem closing_of_positive (positive : 0 < o.batchSize) (rules : List PreparedRule) :
    Closing o rules fun _ => True := by
  refine ⟨fun _ _ => trivial, fun s _ live succeeds => ?_⟩
  simp only [left, live, Bool.false_eq_true, if_false]
  rcases call_progress positive succeeds with stopped | ⟨step, before⟩
  · rw [if_pos stopped]
    omega
  · split <;> omega

theorem calls_left {P : Session → Prop} (closing : Closing o rules P) {n : Nat} {t : Turn}
    (calls : Calls o rules s n t) (start : P s) (succeeds : t.failure = none) :
    left rules t.session ≤ left rules s := by
  induction calls with
  | idle => exact Nat.le_refl _
  | failed live fails => simp [succeeds] at fails
  | more live ok later ih =>
    have rest := ih (closing.kept _ start) succeeds
    have first := closing.less _ start live ok
    exact Nat.le_trans rest (Nat.le_of_lt first)

theorem calls_bound (undisturbed : o.Undisturbed) (ordered : PreparedRule.InOrder rules)
    {n : Nat} {t : Turn} (calls : Calls o rules s n t) (tracks : Tracks target rules s) :
    n ≤ max 1 ((rules.length - s.search.cursor + o.batchSize.toNat - 1) / o.batchSize.toNat) := by
  induction calls with
  | idle => exact Nat.zero_le _
  | failed live fails => exact Nat.le_max_left _ _
  | @more s n t live ok later ih =>
    have rest := ih (call_tracks tracks ordered undisturbed.2.1 undisturbed.2.2)
    rcases call_progress undisturbed.1 ok with stopped | ⟨step, before⟩
    · rw [(later.of_halted stopped).1]
      exact Nat.le_max_left _ _
    · have positive : 0 < o.batchSize.toNat := by
        have := undisturbed.1
        omega
      -- The call took one full batch off, and at least one rule is left behind it.
      have fewer : rules.length - (call o rules s).session.search.cursor +
          o.batchSize.toNat - 1 = rules.length - s.search.cursor - 1 := by omega
      have more : rules.length - s.search.cursor + o.batchSize.toNat - 1 =
          rules.length - s.search.cursor - 1 + o.batchSize.toNat := by omega
      have one : 1 ≤ (rules.length - s.search.cursor - 1) / o.batchSize.toNat :=
        (Nat.le_div_iff_mul_le positive).2 (by omega)
      rw [fewer] at rest
      rw [more, Nat.add_div_right _ positive]
      omega

theorem calls_track (undisturbed : o.Undisturbed) (ordered : PreparedRule.InOrder rules)
    {n : Nat} {t : Turn} (calls : Calls o rules s n t) (tracks : Tracks target rules s) :
    Tracks target rules t.session :=
  calls.preserve (fun _ before => call_tracks before ordered undisturbed.2.1 undisturbed.2.2) tracks

end Session

namespace Feed

open Session

variable {target : Sides} {rules : List PreparedRule} {o : SearchOptions} {s : Session}

theorem advance_ended (f : Feed) (open_ : f.ended = false) (rules : List PreparedRule)
    (s : Session) (ended : (f.advance rules s).2.ended = true) :
    s.search.halted = true ∨ (f.advance rules s).2.turn.failure.isSome = true := by
  simp only [advance, open_, Bool.false_eq_true, if_false] at ended ⊢
  exact advanceFrom_ended _ _ _ _ _ _ ended

theorem advance_of_halted (f : Feed) (rules : List PreparedRule) {s : Session}
    (stopped : s.search.halted = true) : (f.advance rules s).2.turn = ⟨s, [], none⟩ := by
  obtain ⟨n, calls⟩ := advance_calls f rules s
  exact (calls.of_halted stopped).2

theorem callLimit_pos (yieldEvery : Int) : ∃ n, callLimit yieldEvery = n + 1 := by
  have positive : 0 < callLimit yieldEvery := by
    simp only [callLimit]
    omega
  exact ⟨callLimit yieldEvery - 1, by omega⟩

theorem advance_left {P : Session → Prop} (f : Feed) (closing : Closing f.options rules P)
    (start : P s) (going : (f.advance rules s).2.ended = false) :
    left rules (f.advance rules s).2.turn.session < left rules s := by
  have unended : f.ended = false := by
    cases ended : f.ended with
    | false => rfl
    | true => simp [advance, ended] at going
  obtain ⟨calls, limit⟩ := callLimit_pos f.yieldEvery
  have failure := advance_failure f rules s going
  simp only [advance, unended, Bool.false_eq_true, if_false, limit] at going failure ⊢
  rcases advanceFrom_cases f.options f.yieldEvery rules calls 0 s with
    ⟨_, same⟩ | ⟨_, _, same⟩ | ⟨live, ok, _, same⟩ | ⟨live, ok, _, same⟩
  · simp [same] at going
  · simp [same] at going
  · rw [same]
    exact closing.less s start live ok
  · rw [same] at failure ⊢
    obtain ⟨n, _, rest⟩ := advanceFrom_calls f.options f.yieldEvery rules calls
      (counted f.options rules 0 s) (call f.options rules s).session
    have later := calls_left closing rest (closing.kept s start) failure
    exact Nat.lt_of_le_of_lt later (closing.less s start live ok)

theorem drive_halts {P : Session → Prop} (advances : Nat) (f : Feed) (s : Session)
    (unended : f.ended = false) (closing : Closing f.options rules P) (start : P s)
    (enough : left rules s < advances) (succeeds : (drive rules advances f s).failure = none) :
    (drive rules advances f s).session.search.halted = true := by
  induction advances generalizing f s with
  | zero => omega
  | succ advances ih =>
    simp only [drive] at succeeds ⊢
    cases going : (f.advance rules s).2.ended with
    | true =>
      simp only [going, if_true] at succeeds ⊢
      cases advance_ended f unended rules s going with
      | inl stopped =>
        rw [advance_of_halted f rules stopped]
        exact stopped
      | inr fails => simp [succeeds] at fails
    | false =>
      simp only [going, Bool.false_eq_true, if_false] at succeeds ⊢
      have less := advance_left f closing start going
      have still : (f.advance rules s).1.ended = false := by
        rw [← going]
        simp [advance, unended]
      obtain ⟨n, calls⟩ := advance_calls f rules s
      exact ih _ _ still (by rwa [advance_options]) (calls.preserve closing.kept start) (by omega)
        succeeds

end Feed

namespace Session

variable {target : Sides} {rules : List PreparedRule} {o : SearchOptions} {s : Session}

theorem run_closes {P : Session → Prop} (closing : Closing o rules P) (start : P s)
    (yieldEvery : Int) (succeeds : (run o yieldEvery rules s).failure = none) :
    (run o yieldEvery rules s).session.search.halted = true := by
  refine Feed.drive_halts _ (.create o yieldEvery) s rfl closing start ?_ succeeds
  simp only [left, advanceBound]
  split <;> omega

theorem run_ends (positive : 0 < o.batchSize) (yieldEvery : Int)
    (succeeds : (run o yieldEvery rules s).failure = none) :
    (run o yieldEvery rules s).session.search.halted = true :=
  run_closes (closing_of_positive positive rules) trivial yieldEvery succeeds

end Session
end OperatorCalculus
