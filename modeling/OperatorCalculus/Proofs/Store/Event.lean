import OperatorCalculus.Store.Script

-- What happens at a store, one thing after the other: a reload, the entry into the loader,
-- its end, the forms kept for later. Operations that the loader makes on the store lie
-- between its entry and its end, so every moment of every nesting is the end of a beginning
-- of this list. Looks, searches and look-ups by identifier change nothing and are no events.
namespace OperatorCalculus

inductive StoreEvent where
  | reload (axioms : Option (List Rule))
  | enter
  | leave (reply : LoaderReply)
  | keep

namespace StoreEvent

def reloads : StoreEvent → Bool
  | .reload _ => true
  | _ => false

def enters : StoreEvent → Bool
  | .enter => true
  | _ => false

def leaves : StoreEvent → Bool
  | .leave _ => true
  | _ => false

def delivers : StoreEvent → Bool
  | .leave (.ok _) => true
  | _ => false

end StoreEvent

def StoreOp.during : StoreOp → List StoreOp
  | .look | .reload _ => []
  | .load during _ | .cache during _ | .prove _ _ during _ => during

namespace Store

def apply (s : Store) : StoreEvent → Store
  | .reload axioms => s.reload axioms
  | .enter => s.entered
  | .leave reply => s.left reply
  | .keep => s.snapshot.1

def replay (s : Store) (events : List StoreEvent) : Store := events.foldl apply s

def loadEvents (inside : Store → List StoreEvent) (reply : LoaderReply) (s : Store) :
    List StoreEvent :=
  if s.loaded || s.loading then [] else .enter :: inside s.entered ++ [.leave reply]

def keepEvents (l : Loaded) : List StoreEvent := if l.failure.isSome then [] else [.keep]

mutual
def events : StoreOp → Store → List StoreEvent
  | .look, _ => []
  | .reload axioms, _ => [.reload axioms]
  | .load during reply, s => loadEvents (eventsAll during) reply s
  | .cache during reply, s =>
    loadEvents (eventsAll during) reply s ++ keepEvents (s.loadBy (performAll during) reply)
  | .prove _ _ during reply, s =>
    if s.loading then []
    else loadEvents (eventsAll during) reply s ++ keepEvents (s.loadBy (performAll during) reply)

def eventsAll : List StoreOp → Store → List StoreEvent
  | [], _ => []
  | op :: rest, s => events op s ++ eventsAll rest (perform op s).store
end

-- When each event can happen. The forms are kept once the theorems are there, or by an
-- operation of the running loader itself.
inductive Allows (s : Store) : StoreEvent → Prop where
  | reload (axioms : Option (List Rule)) : Allows s (.reload axioms)
  | enter (pending : s.loaded = false) (free : s.loading = false) : Allows s .enter
  | leave (running : s.loading = true) (reply : LoaderReply) : Allows s (.leave reply)
  | keep (ready : s.loaded = true ∨ s.loading = true) : Allows s .keep

inductive Runs : Store → List StoreEvent → Store → Prop where
  | nil {s : Store} : Runs s [] s
  | cons {s t : Store} {e : StoreEvent} {later : List StoreEvent} (allowed : s.Allows e)
      (rest : Runs (s.apply e) later t) : Runs s (e :: later) t

variable {s t u : Store} {past future : List StoreEvent}

theorem Runs.single {e : StoreEvent} (allowed : s.Allows e) : Runs s [e] (s.apply e) :=
  .cons allowed .nil

theorem Runs.append (first : Runs s past t) (second : Runs t future u) :
    Runs s (past ++ future) u := by
  induction first with
  | nil => exact second
  | cons allowed _ ih => exact .cons allowed (ih second)

theorem Runs.replay_eq (runs : Runs s past t) : s.replay past = t := by
  induction runs with
  | nil => rfl
  | cons _ _ ih => exact ih

theorem Runs.split (runs : Runs s (past ++ future) t) :
    Runs s past (s.replay past) ∧ Runs (s.replay past) future t := by
  induction past generalizing s with
  | nil => exact ⟨.nil, runs⟩
  | cons e past ih =>
    cases runs with
    | cons allowed rest =>
      obtain ⟨before, after⟩ := ih rest
      exact ⟨.cons allowed before, after⟩

-- A whole operation: what happens is allowed, and the loader runs afterwards just when it
-- ran before.
structure Performs (s : Store) (events : List StoreEvent) (t : Store) : Prop where
  runs : Runs s events t
  loading : t.loading = s.loading

theorem Performs.append (first : Performs s past t) (second : Performs t future u) :
    Performs s (past ++ future) u :=
  ⟨first.runs.append second.runs, second.loading.trans first.loading⟩

theorem loadBy_cases (inside : Store → Store × List StoreAnswer) (reply : LoaderReply) (s : Store) :
    ((s.loaded = true ∨ s.loading = true) ∧ s.loadBy inside reply = ⟨s, none, []⟩) ∨
    (s.loaded = false ∧ s.loading = false ∧
      (s.loadBy inside reply).store = (inside s.entered).1.left reply ∧
      (s.loadBy inside reply).during = (inside s.entered).2 ∧
      ∀ why, (s.loadBy inside reply).failure = some why ↔ reply = .error why) := by
  cases loaded : s.loaded with
  | true => exact .inl ⟨.inl rfl, loadBy_of_loaded loaded⟩
  | false =>
    cases loading : s.loading with
    | true => exact .inl ⟨.inr rfl, loadBy_of_loading loading⟩
    | false =>
      refine .inr ⟨rfl, rfl, ?_⟩
      cases reply <;> simp [loadBy, loaded, loading]

theorem Performs.load {inside : Store → Store × List StoreAnswer}
    {insideEvents : Store → List StoreEvent} (reply : LoaderReply)
    (works : ∀ s : Store, Performs s (insideEvents s) (inside s).1) (s : Store) :
    Performs s (loadEvents insideEvents reply s) (s.loadBy inside reply).store := by
  rcases loadBy_cases inside reply s with ⟨idle, same⟩ | ⟨pending, free, same, _⟩
  · have none : loadEvents insideEvents reply s = [] := by
      rcases idle with loaded | loading
      · simp [loadEvents, loaded]
      · simp [loadEvents, loading]
    rw [same, none]
    exact ⟨.nil, rfl⟩
  · have all : loadEvents insideEvents reply s = .enter :: insideEvents s.entered ++ [.leave reply] := by
      simp [loadEvents, pending, free]
    have running : (inside s.entered).1.loading = true := (works s.entered).loading
    have finish := Runs.single (.leave running reply)
    rw [same, all]
    refine ⟨.cons (.enter pending free) ((works s.entered).runs.append finish), ?_⟩
    rw [free]
    cases reply <;> rfl

theorem snapshot_fields (s : Store) : s.snapshot.1.axioms = s.axioms ∧
    s.snapshot.1.theorems = s.theorems ∧ s.snapshot.1.hasLoader = s.hasLoader ∧
    s.snapshot.1.loaded = s.loaded ∧ s.snapshot.1.loading = s.loading ∧
    s.snapshot.1.calls = s.calls := by
  simp only [snapshot]
  split <;> exact ⟨rfl, rfl, rfl, rfl, rfl, rfl⟩

theorem ready_of_loadBy {inside : Store → Store × List StoreAnswer} {reply : LoaderReply}
    (succeeds : (s.loadBy inside reply).failure = none) :
    (s.loadBy inside reply).store.loaded = true ∨ (s.loadBy inside reply).store.loading = true := by
  rcases loadBy_cases inside reply s with ⟨idle, same⟩ | ⟨_, _, same, _, fails⟩
  · rw [same]
    exact idle
  · rw [same]
    cases reply with
    | error why =>
      rw [(fails why).2 rfl] at succeeds
      cases succeeds
    | ok theorems => exact .inl rfl

theorem Performs.answering {l : Loaded} {next : Store → Store × StoreAnswer}
    (keeps : ∀ s : Store, (next s).1 = s.snapshot.1) (load : Performs s past l.store)
    (ready : l.failure = none → l.store.loaded = true ∨ l.store.loading = true) :
    Performs s (past ++ keepEvents l) (Store.answering l next).store := by
  unfold keepEvents Store.answering
  cases failure : l.failure with
  | some why => simpa using load
  | none =>
    have keep : Performs l.store [.keep] (next l.store).1 := by
      rw [keeps]
      exact ⟨.single (.keep (ready failure)), (snapshot_fields l.store).2.2.2.2.1⟩
    exact load.append keep

theorem answering_store (l : Loaded) (next : Store → Store × StoreAnswer)
    (silent : ∀ s : Store, (next s).1 = s) : (answering l next).store = l.store := by
  unfold answering
  split
  · rfl
  · exact silent l.store

mutual
theorem perform_performs : ∀ (op : StoreOp) (s : Store),
    Performs s (events op s) (perform op s).store
  | .look, s => by
    simp only [events, perform]
    exact ⟨.nil, rfl⟩
  | .reload axioms, s => by
    simp only [events, perform]
    exact ⟨.single (.reload axioms), rfl⟩
  | .load during reply, s => by
    simp only [events, perform]
    rw [answering_store _ _ fun _ => rfl]
    exact .load reply (performAll_performs during) s
  | .cache during reply, s => by
    simp only [events, perform]
    exact .answering (fun _ => rfl) (.load reply (performAll_performs during) s) ready_of_loadBy
  | .prove start goal during reply, s => by
    simp only [events, perform]
    split
    · exact ⟨.nil, rfl⟩
    · exact .answering (fun _ => rfl) (.load reply (performAll_performs during) s) ready_of_loadBy

theorem performAll_performs : ∀ (ops : List StoreOp) (s : Store),
    Performs s (eventsAll ops s) (performAll ops s).1
  | [], s => by
    simp only [eventsAll, performAll]
    exact ⟨.nil, rfl⟩
  | op :: rest, s => by
    simp only [eventsAll, performAll]
    exact (perform_performs op s).append (performAll_performs rest (perform op s).store)
end

end Store
end OperatorCalculus
