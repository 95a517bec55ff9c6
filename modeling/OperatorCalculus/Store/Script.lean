import OperatorCalculus.Store.Basic

-- Operations on a store. Those that may call the loader carry what the loader would do:
-- operations on the very store that is being loaded, and then its reply. Whether the
-- loader is called is for the store to say, not for the script.
namespace OperatorCalculus

abbrev LoaderReply := Except Text (List Rule)

inductive StoreOp where
  | look
  | reload (axioms : Option (List Rule))
  | load (during : List StoreOp) (reply : LoaderReply)
  | cache (during : List StoreOp) (reply : LoaderReply)
  | prove (start goal : Text) (during : List StoreOp) (reply : LoaderReply)

inductive StoreAnswer where
  | seen (store : Store)
  | reloaded
  | theorems (rules : List Rule)
  | cached (snapshot : Snapshot)
  | proved (result : SearchResult)
  | failed (why : Text)

structure Performed where
  store : Store
  answer : StoreAnswer
  during : List StoreAnswer

structure Loaded where
  store : Store
  failure : Option Text
  during : List StoreAnswer

namespace Store

def loadBy (inside : Store → Store × List StoreAnswer) (reply : LoaderReply) (s : Store) : Loaded :=
  if s.loaded || s.loading then ⟨s, none, []⟩
  else
    let (inner, answers) := inside s.entered
    match reply with
    | .error why => ⟨inner.left reply, some why, answers⟩
    | .ok _ => ⟨inner.left reply, none, answers⟩

def answering (l : Loaded) (next : Store → Store × StoreAnswer) : Performed :=
  match l.failure with
  | some why => ⟨l.store, .failed why, l.during⟩
  | none => ⟨(next l.store).1, (next l.store).2, l.during⟩

def loadingResult : SearchResult := ⟨none, [], .loading⟩

def proveNow (start goal : Text) (s : Store) : Store × StoreAnswer :=
  let (after, forms) := s.snapshot
  (after, .proved (Session.prove .standard Session.standardYield forms.entries false
    start goal).session.search.result)

def cacheNow (s : Store) : Store × StoreAnswer :=
  let (after, forms) := s.snapshot
  (after, .cached forms)

mutual
def perform : StoreOp → Store → Performed
  | .look, s => ⟨s, .seen s, []⟩
  | .reload axioms, s => ⟨s.reload axioms, .reloaded, []⟩
  | .load during reply, s =>
    answering (s.loadBy (performAll during) reply) fun after =>
      (after, .theorems after.theorems)
  | .cache during reply, s =>
    answering (s.loadBy (performAll during) reply) cacheNow
  | .prove start goal during reply, s =>
    if s.loading then ⟨s, .proved loadingResult, []⟩
    else answering (s.loadBy (performAll during) reply) (proveNow start goal)

def performAll : List StoreOp → Store → Store × List StoreAnswer
  | [], s => (s, [])
  | op :: rest, s =>
    let first := perform op s
    let (final, answers) := performAll rest first.store
    (final, first.answer :: answers)
end

theorem loadBy_of_loading {inside : Store → Store × List StoreAnswer} {reply : LoaderReply}
    {s : Store} (h : s.loading = true) : s.loadBy inside reply = ⟨s, none, []⟩ := by
  simp [loadBy, h]

theorem loadBy_of_loaded {inside : Store → Store × List StoreAnswer} {reply : LoaderReply}
    {s : Store} (h : s.loaded = true) : s.loadBy inside reply = ⟨s, none, []⟩ := by
  simp [loadBy, h]

end Store
end OperatorCalculus
