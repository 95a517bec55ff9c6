import OperatorCalculus.Search.Batch

namespace OperatorCalculus

namespace Session

def completedBatch (before after : Session) : Bool := before.search.batches < after.search.batches

def reachesCancel (o : SearchOptions) (s : Session) : Bool := o.cancelAt == some s.search.batches

-- One batch; a completed one is reported as progress before anything else happens.
def call (o : SearchOptions) (rules : List PreparedRule) (s : Session) : Turn :=
  let t := batch o rules s
  if t.failure.isNone && completedBatch s t.session then
    { t with
      session := { t.session with cancelled := t.session.cancelled || reachesCancel o t.session }
      events := t.events ++ [.progress t.session.search] }
  else t

end Session

-- A feed that has ended stays ended. A failed batch ends it too.
structure Feed where
  options : SearchOptions
  yieldEvery : Int
  ended : Bool

structure Advance where
  turn : Turn
  ended : Bool

namespace Feed

def create (o : SearchOptions) (yieldEvery : Int) : Feed := ⟨o, yieldEvery, false⟩

def callLimit (yieldEvery : Int) : Nat := (max 1 yieldEvery).toNat

def prepend (events : List SearchEvent) (a : Advance) : Advance :=
  { a with turn := { a.turn with events := events ++ a.turn.events } }

def advanceFrom (o : SearchOptions) (yieldEvery : Int) (rules : List PreparedRule) :
    Nat → Nat → Session → Advance
  | 0, _, s => ⟨⟨s, [], none⟩, false⟩
  | calls + 1, since, s =>
    if s.search.halted then ⟨⟨s, [], none⟩, true⟩
    else
      let t := Session.call o rules s
      if t.failure.isSome then ⟨t, true⟩
      else
        let now := if Session.completedBatch s t.session then since + 1 else since
        if t.session.search.halted || yieldEvery ≤ now ||
            t.session.search.complete rules.length then
          ⟨t, false⟩
        else prepend t.events (advanceFrom o yieldEvery rules calls now t.session)

def advance (f : Feed) (rules : List PreparedRule) (s : Session) : Feed × Advance :=
  if f.ended then (f, ⟨⟨s, [], none⟩, true⟩)
  else
    let a := advanceFrom f.options f.yieldEvery rules (callLimit f.yieldEvery) 0 s
    ({ f with ended := a.ended }, a)

def drive (rules : List PreparedRule) : Nat → Feed → Session → Turn
  | 0, _, s => ⟨s, [], none⟩
  | n + 1, f, s =>
    let (f', a) := f.advance rules s
    if a.ended then a.turn
    else
      let later := drive rules n f' a.turn.session
      { later with events := a.turn.events ++ later.events }

end Feed

namespace Session

-- A batch without rules moves nothing, and from then on no batch has any: more
-- advances than rules and batches before a cancellation change nothing but the count
-- of batches. A run of batches without rules that nobody cancels has no end; the run
-- here stops at this bound and leaves the search as it stands.
def advanceBound (o : SearchOptions) (rules : Nat) (s : Session) : Nat :=
  (rules - s.search.cursor) +
    (match o.cancelAt with
      | some n => n - s.search.batches
      | none => 0) + 2

def run (o : SearchOptions) (yieldEvery : Int) (rules : List PreparedRule) (s : Session) : Turn :=
  Feed.drive rules (advanceBound o rules.length s) (.create o yieldEvery) s

def prove (o : SearchOptions) (yieldEvery : Int) (rules : List PreparedRule) (cancelled : Bool)
    (start goal : Text) : Turn :=
  let s : Session := ⟨.begin start goal, cancelled⟩
  if s.search.halted then ⟨s, [], none⟩ else run o yieldEvery rules s

def standardYield : Int := 5

def decide (rules : List Rule) (start goal : Text) : SearchResult :=
  (prove .standard standardYield (PreparedRule.all rules) false start goal).session.search.result

end Session
end OperatorCalculus
