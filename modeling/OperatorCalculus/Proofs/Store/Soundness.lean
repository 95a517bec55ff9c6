import OperatorCalculus.Proofs.Search.Sequential
import OperatorCalculus.Proofs.Store.Event

namespace OperatorCalculus
namespace Store

open StoreEvent

-- Whatever forms are kept are those of the rules of this moment; theorems that are pending
-- are not there; a loader at work has not delivered, and without a loader nothing is pending.
structure Sound (s : Store) : Prop where
  forms : ∀ c, s.cache = some c → c.entries = PreparedRule.all s.rules
  pending : s.loaded = false → s.theorems = []
  busy : s.loading = true → s.loaded = false
  provided : s.loaded = false → s.hasLoader = true

variable {s t : Store} {e : StoreEvent} {past since : List StoreEvent} {op : StoreOp} {why : Text}

theorem create_sound (axioms : List Rule) (hasLoader : Bool) : (create axioms hasLoader).Sound := by
  refine ⟨nofun, fun _ => rfl, nofun, ?_⟩
  intro pending
  simpa [create] using pending

theorem snapshot_sound (sound : s.Sound) : s.snapshot.1.Sound := by
  cases kept : s.cache with
  | some c =>
    have same : s.snapshot.1 = s := by simp [snapshot, kept]
    rwa [same]
  | none =>
    refine ⟨?_, ?_, ?_, ?_⟩ <;> simp only [snapshot, kept]
    · intro c fresh
      rw [← Option.some.inj fresh]
      rfl
    · exact sound.pending
    · exact sound.busy
    · exact sound.provided

theorem apply_sound (sound : s.Sound) (allowed : s.Allows e) : (s.apply e).Sound := by
  cases allowed with
  | reload axioms =>
    refine ⟨nofun, fun _ => rfl, ?_, ?_⟩
    · intro running
      have given := sound.provided (sound.busy running)
      simp [apply, Store.reload, given]
    · intro pending
      simpa [apply, Store.reload] using pending
  | enter pending free => exact ⟨sound.forms, sound.pending, fun _ => pending, sound.provided⟩
  | leave running reply =>
    cases reply with
    | error why => exact ⟨sound.forms, sound.pending, nofun, sound.provided⟩
    | ok theorems => exact ⟨nofun, nofun, nofun, nofun⟩
  | keep ready => exact snapshot_sound sound

theorem Runs.sound (runs : Runs s past t) (sound : s.Sound) : t.Sound := by
  induction runs with
  | nil => exact sound
  | cons allowed _ ih => exact ih (apply_sound sound allowed)

theorem Runs.calls (runs : Runs s past t) :
    past.countP enters + s.loading.toNat = past.countP leaves + t.loading.toNat ∧
      t.calls = s.calls + past.countP enters := by
  induction runs with
  | nil => simp
  | @cons s t e later allowed _ ih =>
    obtain ⟨balance, count⟩ := ih
    rw [List.countP_cons, List.countP_cons]
    cases allowed with
    | reload axioms =>
      simp only [enters, leaves, Bool.false_eq_true, if_false, Nat.add_zero]
      exact ⟨balance, count⟩
    | enter pending free =>
      simp only [apply, entered, Bool.toNat_true] at balance count
      simp only [enters, leaves, free, if_true, Bool.false_eq_true, if_false, Bool.toNat_false]
      omega
    | leave running reply =>
      have free : (s.left reply).loading = false := by cases reply <;> rfl
      have same : (s.left reply).calls = s.calls := by cases reply <;> rfl
      simp only [apply, free, same, Bool.toNat_false] at balance count
      simp only [enters, leaves, running, if_true, Bool.false_eq_true, if_false, Bool.toNat_true]
      omega
    | keep ready =>
      obtain ⟨_, _, _, _, loading, calls⟩ := snapshot_fields s
      simp only [apply, loading, calls] at balance count
      simp only [enters, leaves, Bool.false_eq_true, if_false, Nat.add_zero]
      exact ⟨balance, count⟩

theorem Runs.deliveries (runs : Runs s since t) (sound : s.Sound)
    (quiet : ∀ e ∈ since, e.reloads = false) :
    since.countP delivers ≤ (!s.loaded).toNat := by
  induction runs with
  | nil => exact Nat.zero_le _
  | @cons s t e later allowed _ ih =>
    have rest := ih (apply_sound sound allowed) fun e member => quiet e (List.mem_cons_of_mem _ member)
    rw [List.countP_cons]
    cases allowed with
    | reload axioms => cases quiet _ (List.mem_cons_self ..)
    | enter pending free => simpa [apply, entered, delivers] using rest
    | leave running reply =>
      cases reply with
      | error why => simpa [apply, left, delivers] using rest
      | ok theorems =>
        have pending := sound.busy running
        simpa [apply, left, delivers, pending] using rest
    | keep ready =>
      rw [apply, (snapshot_fields s).2.2.2.1] at rest
      simpa [delivers] using rest

theorem answering_failed {l : Loaded} {next : Store → Store × StoreAnswer}
    (never : ∀ s why, (next s).2 ≠ .failed why) (failed : (answering l next).answer = .failed why) :
    l.failure = some why ∧ (answering l next).store = l.store := by
  unfold answering at failed ⊢
  cases failure : l.failure with
  | some reason =>
    rw [failure] at failed
    cases failed
    exact ⟨rfl, rfl⟩
  | none =>
    rw [failure] at failed
    exact absurd failed (never _ _)

theorem answering_during (l : Loaded) (next : Store → Store × StoreAnswer) :
    (answering l next).during = l.during := by
  unfold answering
  split <;> rfl

theorem perform_cases (op : StoreOp) (s : Store) :
    (∃ u answer, perform op s = ⟨u, answer, []⟩ ∧ (∀ why, answer ≠ .failed why) ∧
      ∀ t, answer = .seen t → t = s) ∨
    ∃ reply next, perform op s = answering (s.loadBy (performAll op.during) reply) next ∧
      (∀ u why, (next u).2 ≠ StoreAnswer.failed why) ∧ ∀ u t, (next u).2 ≠ .seen t := by
  cases op with
  | look =>
    refine .inl ⟨s, .seen s, by rw [perform], nofun, fun t seen => ?_⟩
    cases seen
    rfl
  | reload axioms => exact .inl ⟨s.reload axioms, .reloaded, by rw [perform], nofun, nofun⟩
  | load during reply =>
    refine .inr ⟨reply, fun after => (after, .theorems after.theorems), ?_, nofun, nofun⟩
    rw [perform, StoreOp.during]
  | cache during reply =>
    refine .inr ⟨reply, cacheNow, ?_, nofun, nofun⟩
    rw [perform, StoreOp.during]
  | prove start goal during reply =>
    cases loading : s.loading with
    | true =>
      refine .inl ⟨s, .proved loadingResult, ?_, nofun, nofun⟩
      rw [perform, if_pos loading]
    | false =>
      refine .inr ⟨reply, proveNow start goal, ?_, nofun, nofun⟩
      rw [perform, if_neg (by simp [loading]), StoreOp.during]

theorem perform_failed (failed : (perform op s).answer = .failed why) :
    s.loaded = false ∧ s.loading = false ∧
      (perform op s).store = (performAll op.during s.entered).1.left (.error why) := by
  rcases perform_cases op s with ⟨u, answer, same, never, _⟩ | ⟨reply, next, same, never, _⟩
  · rw [same] at failed
    exact absurd failed (never why)
  · rw [same] at failed ⊢
    obtain ⟨failure, store⟩ := answering_failed never failed
    rcases loadBy_cases (performAll op.during) reply s with ⟨_, idle⟩ | ⟨pending, free, made, _, fails⟩
    · rw [idle] at failure
      cases failure
    · rw [store, made, (fails why).1 failure]
      exact ⟨pending, free, rfl⟩

theorem perform_during (op : StoreOp) (s : Store) : (perform op s).during = [] ∨
    (perform op s).during = (performAll op.during s.entered).2 := by
  rcases perform_cases op s with ⟨u, answer, same, _⟩ | ⟨reply, next, same, _⟩
  · rw [same]
    exact .inl rfl
  · rw [same, answering_during]
    rcases loadBy_cases (performAll op.during) reply s with ⟨_, none⟩ | ⟨_, _, _, some, _⟩
    · rw [none]
      exact .inl rfl
    · exact .inr some

theorem seen_perform (seen : (perform op s).answer = .seen t) : t = s := by
  rcases perform_cases op s with ⟨u, answer, same, _, look⟩ | ⟨reply, next, same, _, never⟩
  · rw [same] at seen
    exact look t seen
  · rw [same, answering] at seen
    split at seen
    · cases seen
    · exact absurd seen (never _ t)

theorem seen_performAll (ops : List StoreOp) (seen : .seen t ∈ (performAll ops s).2) :
    t.loading = s.loading := by
  induction ops generalizing s with
  | nil => simp [performAll] at seen
  | cons op rest ih =>
    simp only [performAll, List.mem_cons] at seen
    rcases seen with here | later
    · rw [seen_perform here.symm]
    · exact (ih later).trans (perform_performs op s).loading

-- A call of the loader has begun and not ended.
def InLoader (past : List StoreEvent) : Prop := past.countP leaves < past.countP enters

instance (past : List StoreEvent) : Decidable (InLoader past) :=
  inferInstanceAs (Decidable (past.countP leaves < past.countP enters))

theorem runs_to_moment {future : List StoreEvent} (ops : List StoreOp)
    (moment : eventsAll ops s = past ++ future) :
    Runs s past (s.replay past) ∧ Runs (s.replay past) future (performAll ops s).1 := by
  have whole := (performAll_performs ops s).runs
  rw [moment] at whole
  exact whole.split

theorem Runs.loading_iff (runs : Runs s past t) (free : s.loading = false) :
    t.loading = true ↔ InLoader past := by
  have balance := runs.calls.1
  rw [free, Bool.toNat_false, Nat.add_zero] at balance
  unfold InLoader
  cases loading : t.loading with
  | true =>
    rw [loading, Bool.toNat_true] at balance
    simp only [true_iff]
    omega
  | false =>
    rw [loading, Bool.toNat_false] at balance
    simp only [Bool.false_eq_true, false_iff]
    omega

-- The moments are those between any two events of any script, within the loader or outside.
theorem sound_at_every_moment (axioms : List Rule) (hasLoader : Bool) (ops : List StoreOp)
    (past future : List StoreEvent)
    (moment : eventsAll ops (create axioms hasLoader) = past ++ future) :
    let start := create axioms hasLoader
    let s := start.replay past
    start.replay (past ++ future) = (performAll ops start).1 ∧
    (∀ c, s.cache = some c → c.entries = PreparedRule.all (s.axioms ++ s.theorems)) ∧
    (s.loaded = false → s.theorems = []) ∧
    ((s.loading = true ↔ InLoader past) ∧ (∀ later, future = .enter :: later → ¬ InLoader past) ∧
      past.countP enters ≤ past.countP leaves + 1 ∧ s.calls = past.countP enters ∧
      ∀ op, (perform op s).store.loading = s.loading ∧
        ∀ t, .seen t ∈ (perform op s).during → t.loading = true) ∧
    (∀ op why, (perform op s).answer = .failed why →
      (perform op s).store = { (performAll op.during s.entered).1 with loading := false }) ∧
    ∀ since, since <:+ past → (∀ e ∈ since, e.reloads = false) → since.countP delivers ≤ 1 := by
  intro start s
  obtain ⟨reached, onward⟩ := runs_to_moment ops moment
  have sound : s.Sound := reached.sound (create_sound axioms hasLoader)
  obtain ⟨balance, count⟩ := reached.calls
  have running : s.loading = true ↔ InLoader past := reached.loading_iff rfl
  refine ⟨?_, sound.forms, sound.pending, ⟨running, ?_, ?_, ?_, ?_⟩, ?_, ?_⟩
  · rw [← moment]
    exact (performAll_performs ops start).runs.replay_eq
  · intro later next inside
    rw [next] at onward
    cases onward with
    | cons allowed _ =>
      cases allowed with
      | enter pending free =>
        rw [running.2 inside] at free
        cases free
  · have one := Bool.toNat_le s.loading
    have balanced : past.countP enters = past.countP leaves + s.loading.toNat := balance
    omega
  · exact count.trans (Nat.zero_add _)
  · intro op
    refine ⟨(perform_performs op s).loading, fun t seen => ?_⟩
    rcases perform_during op s with none | made
    · rw [none] at seen
      cases seen
    · rw [made] at seen
      exact seen_performAll op.during seen
  · intro op why failed
    exact (perform_failed failed).2.2
  · intro since recent quiet
    -- The store was sound where the stretch without a reload began.
    obtain ⟨before, rfl⟩ := recent
    obtain ⟨first, rest⟩ := reached.split
    have bound := rest.deliveries (first.sound (create_sound axioms hasLoader)) quiet
    exact Nat.le_trans bound (Bool.toNat_le _)

-- The loader keeps the forms of the axioms, reloads, tries to load again and fails; the next
-- load delivers, and the moment is the one at which the loader is still at work.
theorem sound_at_every_moment_failing :
    let a := Rule.between [',', 'i'] [',', 'j']
    let ops : List StoreOp := [
      .load [.cache [] (.ok []), .reload none, .load [] (.ok [a]), .cache [] (.ok [])] (.error ['e']),
      .cache [.look] (.ok [a])]
    let past : List StoreEvent := [.enter, .keep, .reload none, .keep]
    let future : List StoreEvent := [.leave (.error ['e']), .enter, .leave (.ok [a]), .keep]
    let s := (create [a] true).replay past
    eventsAll ops (create [a] true) = past ++ future ∧
      (∀ c, s.cache = some c → c.entries = PreparedRule.all (s.axioms ++ s.theorems)) ∧
      InLoader past := by
  intro a ops past future s
  have moment : eventsAll ops (create [a] true) = past ++ future := by rfl
  obtain ⟨_, forms, _, ⟨running, _⟩, _⟩ := sound_at_every_moment [a] true ops past future moment
  exact ⟨moment, forms, running.1 rfl⟩

end Store
end OperatorCalculus
