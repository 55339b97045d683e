-- SUMMARY: Observers: the programs that run on events, and the recorder of events.
import BytecodeCoverage.Event

/-!
# Observers

An observer has a handler for some kinds of events. What a handler does is a program over a memory
that all observers share: it may change the memory, raise a fault, register and remove observers,
and ask for a parse of its own. Such a parse is refused while the one that notifies is running,
but that is for the engine to see to.
-/

namespace BytecodeCoverage

/-- Observers are told apart by numbers. -/
abbrev ObserverId := Nat

/-- What a parse gives: all stored snapshots, or a fault. -/
abbrev ParseResult := Except Fault (List FileSnapshot)

/-- The program of a handler over a memory. -/
inductive Reaction (σ : Type) where
  | done
  | remember (change : σ → σ) (next : Reaction σ)
  | raise (fault : Fault)
  | register (observer : ObserverId) (next : Reaction σ)
  | remove (observer : ObserverId) (next : Reaction σ)
  | parse (text : String) (next : ParseResult → Reaction σ)

/-- How observers react: the handler of an observer for a kind of event, if it has one. A handler
is given the event, the store and the memory at the time of the call. -/
abbrev Behaviour (σ : Type) :=
  ObserverId → EventKind → Option (Event → Store → σ → Reaction σ)

/-- The registered observers, in the order of registration. An observer may be there twice. -/
abbrev Registry := List ObserverId

-- ---------------------------------------------------------------------------
-- Recorders
-- ---------------------------------------------------------------------------

/-- An observer that collects every event. -/
structure Recorder where
  events : List Event := []
  deriving Repr, DecidableEq

namespace Recorder

def record (r : Recorder) (e : Event) : Recorder := ⟨r.events ++ [e]⟩

/-- The events of a kind. -/
def ofKind (r : Recorder) (kind : EventKind) : List Event := r.events.filter (·.kind = kind)

/-- The events, and the recorder without them. -/
def drain (r : Recorder) : List Event × Recorder := (r.events, {})

end Recorder

end BytecodeCoverage
