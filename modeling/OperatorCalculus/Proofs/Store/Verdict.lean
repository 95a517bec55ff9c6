import OperatorCalculus.Proofs.Store.Soundness

namespace OperatorCalculus
namespace Store

variable {s : Store} {past future : List StoreEvent} {during : List StoreOp} {reply : LoaderReply}

theorem Sound.snapshot_entries (sound : s.Sound) :
    s.snapshot.2.entries = PreparedRule.all s.rules := by
  cases kept : s.cache with
  | some c =>
    have same : s.snapshot.2 = c := by simp [snapshot, kept]
    rw [same, sound.forms c kept]
  | none => exact Store.snapshot_entries kept

theorem snapshot_rules (s : Store) : s.snapshot.1.rules = s.rules := by
  obtain ⟨axioms, theorems, _⟩ := snapshot_fields s
  rw [rules, axioms, theorems]
  rfl

theorem proveNow_answer (start goal : Text) (sound : s.Sound) :
    (s.proveNow start goal).2 = .proved (Session.decide (s.proveNow start goal).1.rules start goal) := by
  have same : (s.proveNow start goal).1.rules = s.rules := snapshot_rules s
  rw [same]
  simp only [proveNow, sound.snapshot_entries]
  rfl

theorem prove_of_loading (start goal : Text) (running : s.loading = true) :
    perform (.prove start goal during reply) s = ⟨s, .proved ⟨none, [], .loading⟩, []⟩ := by
  simp [perform, running, loadingResult]

theorem prove_of_free (start goal : Text) (free : s.loading = false) :
    perform (.prove start goal during reply) s =
      answering (s.loadBy (performAll during) reply) (proveNow start goal) := by
  simp [perform, free]

theorem prove_failed (start goal : Text) (sound : s.Sound) (free : s.loading = false)
    (pending : s.loaded = false) {why : Text} (fails : reply = .error why) :
    (perform (.prove start goal during reply) s).answer = .failed why ∧
      (perform (.prove start goal during reply) s).store.loaded = false := by
  rcases loadBy_cases (performAll during) reply s with ⟨idle, _⟩ | ⟨_, _, store, _, failure⟩
  · rw [pending, free] at idle
    simp at idle
  · -- What the loader did before it failed can not have ended a load.
    have inside := performAll_performs during s.entered
    have entered : s.entered.Sound := apply_sound sound (.enter pending free)
    have still := (inside.runs.sound entered).busy inside.loading
    have failed := (failure why).2 fails
    rw [fails] at store failed
    rw [prove_of_free start goal free, fails, answering, failed]
    exact ⟨rfl, (congrArg Store.loaded store).trans still⟩

theorem prove_whole (start goal : Text) (sound : s.Sound) (free : s.loading = false)
    (there : s.loaded = true ∨ ∃ theorems, reply = .ok theorems) :
    let p := perform (.prove start goal during reply) s
    p.store.loaded = true ∧ p.answer = .proved (Session.decide p.store.rules start goal) := by
  intro p
  let l := s.loadBy (performAll during) reply
  have load : Performs s _ l.store := .load reply (performAll_performs during) s
  have loaded : l.failure = none ∧ l.store.loaded = true := by
    rcases loadBy_cases (performAll during) reply s with ⟨idle, same⟩ | ⟨pending, _, same, _, fails⟩
    · rcases idle with loaded | loading
      · exact ⟨congrArg Loaded.failure same, (congrArg (·.store.loaded) same).trans loaded⟩
      · rw [free] at loading
        cases loading
    · rcases there with loaded | ⟨theorems, rfl⟩
      · rw [pending] at loaded
        cases loaded
      · refine ⟨?_, congrArg Store.loaded same⟩
        cases failure : l.failure with
        | none => rfl
        | some why => cases (fails why).1 failure
  have whole : p = ⟨(l.store.proveNow start goal).1, (l.store.proveNow start goal).2, l.during⟩ := by
    have opened : p = answering l (proveNow start goal) := prove_of_free start goal free
    rw [opened, answering, loaded.1]
  have kept : l.store.snapshot.1.loaded = l.store.loaded := (snapshot_fields l.store).2.2.2.1
  rw [whole]
  exact ⟨kept.trans loaded.2, proveNow_answer start goal (load.runs.sound sound)⟩

theorem verdict_on_whole_store (axioms : List Rule) (hasLoader : Bool) (ops : List StoreOp)
    (past future : List StoreEvent)
    (moment : eventsAll ops (create axioms hasLoader) = past ++ future)
    (start goal : Text) (during : List StoreOp) (reply : LoaderReply) :
    let s := (create axioms hasLoader).replay past
    let p := perform (.prove start goal during reply) s
    (InLoader past → p = ⟨s, .proved ⟨none, [], .loading⟩, []⟩) ∧
    (¬ InLoader past → s.loaded = false → ∀ why, reply = .error why →
      p.answer = .failed why ∧ p.store.loaded = false) ∧
    (¬ InLoader past → (s.loaded = true ∨ ∃ theorems, reply = .ok theorems) →
      p.store.loaded = true ∧
        p.answer = .proved (Session.decide (p.store.axioms ++ p.store.theorems) start goal)) ∧
    (∀ result, p.answer = .proved result →
      result.status = .exhausted ∨ result.verdict = some false →
        p.store.loaded = true ∧ p.store.loading = false) := by
  intro s p
  obtain ⟨reached, _⟩ := runs_to_moment ops moment
  have sound : s.Sound := reached.sound (create_sound axioms hasLoader)
  have running : s.loading = true ↔ InLoader past := reached.loading_iff rfl
  have free : ¬ InLoader past → s.loading = false := fun outside => by
    rwa [← running, Bool.not_eq_true] at outside
  refine ⟨fun inside => prove_of_loading start goal (running.2 inside), ?_, ?_, ?_⟩
  · intro outside pending why fails
    exact prove_failed start goal sound (free outside) pending fails
  · intro outside there
    exact prove_whole start goal sound (free outside) there
  · intro result answer negative
    have flag : p.store.loading = s.loading := (perform_performs _ s).loading
    cases loading : s.loading with
    | true =>
      have opened : p = ⟨s, .proved ⟨none, [], .loading⟩, []⟩ := prove_of_loading start goal loading
      rw [opened] at answer
      cases answer
      rcases negative with spent | no
      · cases spent
      · cases no
    | false =>
      refine ⟨?_, flag.trans loading⟩
      have there : s.loaded = true ∨ ∃ theorems, reply = .ok theorems := by
        cases loaded : s.loaded with
        | true => exact .inl rfl
        | false =>
          cases reply with
          | ok theorems => exact .inr ⟨theorems, rfl⟩
          | error why =>
            have failed : p.answer = .failed why :=
              (prove_failed start goal sound loading loaded rfl).1
            rw [failed] at answer
            cases answer
      exact (prove_whole start goal sound loading there).1

-- A loader fails after it has kept the forms of the axioms alone; the proof that follows
-- loads anew and is answered from both lists.
theorem verdict_on_whole_store_after_failure :
    let a := Rule.between [',', 'i'] [',', '7']
    let t := Rule.between [',', 'i'] [',', 'j']
    let ops : List StoreOp := [.load [.cache [] (.ok [])] (.error ['e'])]
    let past : List StoreEvent := [.enter, .keep, .leave (.error ['e'])]
    let s := (create [a] true).replay past
    let p := perform (.prove [',', 'a'] [',', 'b'] [.look] (.ok [t])) s
    eventsAll ops (create [a] true) = past ++ [] ∧ ¬ InLoader past ∧
      s.cache.isSome = true ∧ s.loaded = false ∧ p.store.axioms ++ p.store.theorems = [a, t] ∧
      p.answer = .proved (Session.decide (p.store.axioms ++ p.store.theorems) [',', 'a'] [',', 'b']) := by
  intro a t ops past s p
  have moment : eventsAll ops (create [a] true) = past ++ [] := by rfl
  have outside : ¬ InLoader past := by decide
  obtain ⟨_, _, whole, _⟩ := verdict_on_whole_store [a] true ops past [] moment
    [',', 'a'] [',', 'b'] [.look] (.ok [t])
  exact ⟨moment, outside, rfl, rfl, rfl, (whole outside (.inr ⟨[t], rfl⟩)).2⟩

end Store
end OperatorCalculus
