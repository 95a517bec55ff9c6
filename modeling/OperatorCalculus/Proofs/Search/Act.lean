import OperatorCalculus.Proofs.Search.Halting

namespace OperatorCalculus

-- A run may be left after any number of its advances; with a yield after each batch it is
-- left after any number of its batches. Feeds may be many and may take turns. Between two
-- acts the caller may cancel the token or pass on another one.
inductive Act where
  | batch (options : SearchOptions)
  | run (options : SearchOptions) (yieldEvery : Int) (advances : Nat)
  | advance (feed : Feed)
  | token (cancelled : Bool)

def FanOut.cancelling : FanOut := fun _ checks => ⟨true, .ok checks⟩

theorem FanOut.cancelling_permutes : FanOut.cancelling.Permutes := by
  intro number checks answer same
  cases same
  exact List.Perm.refl _

namespace Act

open Session

def options? : Act → Option SearchOptions
  | .batch o => some o
  | .run o _ _ => some o
  | .advance f => some f.options
  | .token _ => none

def perform (rules : List PreparedRule) (s : Session) : Act → Turn
  | .batch o => Session.batch o rules s
  | .run o yieldEvery advances => Feed.drive rules advances (.create o yieldEvery) s
  | .advance f => (f.advance rules s).2.turn
  | .token cancelled => ⟨{ s with cancelled := cancelled }, [], none⟩

def performAll (rules : List PreparedRule) (s : Session) (acts : List Act) : Session :=
  acts.foldl (fun s a => (a.perform rules s).session) s

def Permutes (a : Act) : Prop := ∀ o, a.options? = some o → o.fanOut.Permutes

variable {rules : List PreparedRule} {s : Session} {o : SearchOptions} {a : Act}

theorem perform_cases (rules : List PreparedRule) (s : Session) (a : Act) :
    (∃ o, a.options? = some o ∧ a.perform rules s = Session.batch o rules s) ∨
    (∃ o n, a.options? = some o ∧ Calls o rules s n (a.perform rules s)) ∨
    (∃ token, a = .token token) := by
  cases a with
  | batch o => exact .inl ⟨o, rfl, rfl⟩
  | run o yieldEvery advances =>
    obtain ⟨n, calls⟩ := Feed.drive_calls rules advances (.create o yieldEvery) s
    exact .inr (.inl ⟨o, n, rfl, calls⟩)
  | advance f =>
    obtain ⟨n, calls⟩ := f.advance_calls rules s
    exact .inr (.inl ⟨f.options, n, rfl, calls⟩)
  | token token => exact .inr (.inr ⟨token, rfl⟩)

theorem keeps {P : Search → Prop} (ordered : PreparedRule.InOrder rules)
    (kept : ∀ token s t, Search.Transition rules token s t → P s → P t) (permutes : a.Permutes)
    (start : P s.search) : P (a.perform rules s).session.search ∧
      ∀ shown ∈ (a.perform rules s).progress, P shown := by
  rcases perform_cases rules s a with ⟨o, own, same⟩ | ⟨o, n, own, calls⟩ | ⟨token, rfl⟩
  · rw [same, batch_shown]
    exact ⟨kept _ _ _ (batch_transition ordered (permutes o own) s) start, nofun⟩
  · have step : ∀ s : Session, P s.search → P (call o rules s).session.search := fun s start =>
      kept _ _ _ (call_transition ordered (permutes o own) s) start
    exact ⟨calls.preserve (P := fun s => P s.search) step start, calls.shown step start⟩
  · exact ⟨start, nofun⟩

theorem keeps_all {P : Search → Prop} (ordered : PreparedRule.InOrder rules)
    (kept : ∀ token s t, Search.Transition rules token s t → P s → P t) (acts : List Act)
    (permutes : ∀ a ∈ acts, a.Permutes) (start : P s.search) :
    P (performAll rules s acts).search :=
  List.foldlRecOn (motive := fun s : Session => P s.search) acts _ start
    fun _ before a member => (keeps ordered kept (permutes a member) before).1

end Act
end OperatorCalculus
