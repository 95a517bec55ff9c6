import OperatorCalculus.Search.Drive

-- A caller works on one search in any order it likes: single batches, whole runs, a feed
-- that is advanced now and then, and the cancellation of the token in between. A new
-- feed replaces the former one.
namespace OperatorCalculus

inductive SearchOp where
  | batch (options : SearchOptions)
  | run (options : SearchOptions) (yieldEvery : Int)
  | feed (options : SearchOptions) (yieldEvery : Int)
  | advance
  | cancel

structure Workbench where
  session : Session
  feed : Option Feed

-- Ended is told of an advance only; without a feed there is nothing to advance.
structure Worked where
  bench : Workbench
  turn : Turn
  ended : Option Bool

namespace Workbench

def quiet (b : Workbench) : Worked := ⟨b, ⟨b.session, [], none⟩, none⟩

def perform (rules : List PreparedRule) (b : Workbench) : SearchOp → Worked
  | .batch o =>
    let t := Session.batch o rules b.session
    ⟨{ b with session := t.session }, t, none⟩
  | .run o yieldEvery =>
    let t := Session.run o yieldEvery rules b.session
    ⟨{ b with session := t.session }, t, none⟩
  | .feed o yieldEvery => quiet { b with feed := some (.create o yieldEvery) }
  | .advance =>
    match b.feed with
    | none => quiet b
    | some f =>
      let (f', a) := f.advance rules b.session
      ⟨⟨a.turn.session, some f'⟩, a.turn, some a.ended⟩
  | .cancel => quiet { b with session := { b.session with cancelled := true } }

end Workbench
end OperatorCalculus
