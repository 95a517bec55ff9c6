import OperatorCalculus.Rule.Listing
import OperatorCalculus.Search.Drive

-- An ordered store of rules: the axioms, then the theorems, which a loader brings in
-- on first demand. The store holds the canonical forms of its rules until its contents
-- change. Listing covers what is there so far; it never calls the loader.
namespace OperatorCalculus

-- Canonical forms of the rules of one moment. Two snapshots with one serial number are
-- the very same snapshot, not only equal ones.
structure Snapshot where
  serial : Nat
  entries : List PreparedRule
deriving DecidableEq, Repr

structure Store where
  axioms : List Rule
  theorems : List Rule
  hasLoader : Bool
  loaded : Bool
  loading : Bool
  cache : Option Snapshot
  built : Nat
  calls : Nat
deriving DecidableEq, Repr

namespace Store

-- Without a loader there is nothing left to load.
def create (axioms : List Rule) (hasLoader : Bool) : Store :=
  ⟨axioms, [], hasLoader, !hasLoader, false, none, 0, 0⟩

def rules (s : Store) : List Rule := s.axioms ++ s.theorems

def find? (s : Store) (id : Text) : Option Rule := s.rules.find? fun r => r.id == id

def search (s : Store) (f : Filter) : List Rule := Listing.search f s.rules

-- The theorems are dropped even while the loader runs.
def reload (axioms : Option (List Rule)) (s : Store) : Store :=
  { s with
    axioms := axioms.getD s.axioms
    theorems := []
    loaded := !s.hasLoader
    cache := none }

def snapshot (s : Store) : Store × Snapshot :=
  match s.cache with
  | some c => (s, c)
  | none =>
    let c : Snapshot := ⟨s.built, PreparedRule.all s.rules⟩
    ({ s with cache := some c, built := s.built + 1 }, c)

def entered (s : Store) : Store := { s with loading := true, calls := s.calls + 1 }

-- A loader that fails leaves the store as the loader itself left it.
def left (reply : Except Text (List Rule)) (s : Store) : Store :=
  match reply with
  | .error _ => { s with loading := false }
  | .ok theorems =>
    { s with loading := false, theorems := theorems, loaded := true, cache := none }

theorem snapshot_entries {s : Store} (h : s.cache = none) :
    s.snapshot.2.entries = PreparedRule.all s.rules := by
  simp [snapshot, h]

end Store
end OperatorCalculus
