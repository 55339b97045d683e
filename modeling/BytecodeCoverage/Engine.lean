-- SUMMARY: The engine: parse a dump, store what it changes and notify observers of each change.
import BytecodeCoverage.Observer

/-!
# The engine

A parse reads the whole dump before it stores anything, so a dump with a fault in its text changes
nothing. Then it makes the changes one by one, and after each of them notifies the observers that
are registered at that moment. If one of them raises, the changes made so far stay and the others
are not made. A file that there is no room for ends the parse in the same way, once the changes of
the files before it are made.

While a parse runs, another is refused, and when it has ended in any way, the next is taken.
-/

namespace BytecodeCoverage

structure Engine (σ : Type) where
  store : Store := {}
  registry : Registry := []
  /-- A parse is running. -/
  parsing : Bool := false
  memory : σ

namespace Engine

variable {σ : Type}

/-- What an observer gets that asks for a parse. -/
abbrev Nested (σ : Type) := Engine σ → String → Engine σ × ParseResult

/-- Run the program of a handler. -/
def react (nested : Nested σ) : Engine σ → Reaction σ → Engine σ × Option Fault
  | e, .done => (e, none)
  | e, .remember change next => react nested { e with memory := change e.memory } next
  | e, .raise fault => (e, some fault)
  | e, .register observer next => react nested { e with registry := e.registry ++ [observer] } next
  | e, .remove observer next => react nested { e with registry := e.registry.erase observer } next
  | e, .parse text next =>
    let (e', result) := nested e text
    react nested e' (next result)

/-- Notify some observers of an event, one after the other, up to the first that raises. -/
def notify (behaviour : Behaviour σ) (nested : Nested σ) (event : Event) :
    Engine σ → List ObserverId → Engine σ × Option Fault
  | e, [] => (e, none)
  | e, observer :: rest =>
    match behaviour observer event.kind with
    | none => notify behaviour nested event e rest
    | some handler =>
      match react nested e (handler event e.store e.memory) with
      | (e', none) => notify behaviour nested event e' rest
      | (e', some fault) => (e', some fault)

/-- Make changes, and notify the registered observers of each. -/
def commit (behaviour : Behaviour σ) (nested : Nested σ) :
    Engine σ → List Change → Engine σ × Option Fault
  | e, [] => (e, none)
  | e, change :: rest =>
    let e := { e with store := e.store.apply change }
    match notify behaviour nested change.event e e.registry with
    | (e', none) => commit behaviour nested e' rest
    | (e', some fault) => (e', some fault)

/-- Parse a dump, where `nested` answers the observers that ask for a parse meanwhile. -/
def parseWith (g : Grammar) (behaviour : Behaviour σ) (nested : Nested σ) (e : Engine σ)
    (text : String) : Engine σ × ParseResult :=
  if e.parsing then (e, .error .reentrantParse)
  else
    match dumpOf g text with
    | .error fault => (e, .error fault)
    | .ok dump =>
      let (e', fault) :=
        commit behaviour nested { e with parsing := true } (e.store.changes dump.snapshots)
      let e' := { e' with parsing := false }
      match fault <|> dump.fault with
      | none => (e', .ok e'.store.snapshots)
      | some fault => (e', .error fault)

/-- Parse a dump, with observers that may ask for parses, and theirs in turn, up to a depth. -/
def parseTo (g : Grammar) (behaviour : Behaviour σ) : Nat → Nested σ
  | 0 => fun e _ => (e, .error .reentrantParse)
  | depth + 1 => parseWith g behaviour (parseTo g behaviour depth)

/-- Parse a dump. One level of parses in parses is enough, since the guard refuses it. -/
def parse (g : Grammar) (behaviour : Behaviour σ) (e : Engine σ) (text : String) :
    Engine σ × ParseResult :=
  parseTo g behaviour 2 e text

def addObserver (e : Engine σ) (observer : ObserverId) : Engine σ :=
  { e with registry := e.registry ++ [observer] }

/-- Remove the first registration of an observer. -/
def removeObserver (e : Engine σ) (observer : ObserverId) : Engine σ :=
  { e with registry := e.registry.erase observer }

end Engine

end BytecodeCoverage
