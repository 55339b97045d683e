-- SUMMARY: What a parse does to the store: handlers keep it, and a commit makes the changes.
import BytecodeCoverage.Engine
import BytecodeCoverage.Proofs.Store.Absorption

/-!
# Commits

While a parse runs, the store is changed by its own changes and by nothing else. Handlers run in
between, but they have no way to the store: a parse that they ask for is refused.
-/

namespace BytecodeCoverage

variable {σ : Type}

/-! ## Quiet observers -/

/-- The program never raises. A parse that it asks for is refused, so only what it does after the
refusal counts. -/
def Reaction.Quiet : Reaction σ → Prop
  | .done => True
  | .remember _ next => next.Quiet
  | .raise _ => False
  | .register _ next => next.Quiet
  | .remove _ next => next.Quiet
  | .parse _ next => (next (.error .reentrantParse)).Quiet

/-- No handler of any observer ever raises. -/
def Behaviour.Quiet (behaviour : Behaviour σ) : Prop :=
  ∀ observer kind handler, behaviour observer kind = some handler →
    ∀ event store memory, (handler event store memory).Quiet

namespace Engine

/-- Engines that differ in their registry and their memory at most. -/
structure Keeps (e e' : Engine σ) : Prop where
  store : e'.store = e.store
  parsing : e'.parsing = e.parsing

namespace Keeps

theorem refl (e : Engine σ) : Keeps e e := ⟨rfl, rfl⟩

theorem trans {a b c : Engine σ} (hab : Keeps a b) (hbc : Keeps b c) : Keeps a c :=
  ⟨hbc.store.trans hab.store, hbc.parsing.trans hab.parsing⟩

end Keeps

/-- Parses are refused while one is running. -/
def Refuses (nested : Nested σ) : Prop :=
  ∀ e text, e.parsing = true → nested e text = (e, .error .reentrantParse)

theorem refuses_parseTo (g : Grammar) (behaviour : Behaviour σ) (depth : Nat) :
    Refuses (parseTo g behaviour depth) := by
  intro e text h
  cases depth with
  | zero => rfl
  | succ depth => exact if_pos h

/-! ## Handlers -/

variable {behaviour : Behaviour σ} {nested : Nested σ}

/-- By induction on the program. A refused parse gives back the engine that asked for it. -/
theorem keeps_react (hnested : Refuses nested) (r : Reaction σ) (e : Engine σ)
    (he : e.parsing = true) : Keeps e (react nested e r).1 := by
  induction r generalizing e with
  | done => exact .refl e
  | remember change next ih =>
    obtain ⟨hstore, hparsing⟩ := ih { e with memory := change e.memory } he
    exact ⟨hstore, hparsing⟩
  | raise fault => exact .refl e
  | register observer next ih =>
    obtain ⟨hstore, hparsing⟩ := ih { e with registry := e.registry ++ [observer] } he
    exact ⟨hstore, hparsing⟩
  | remove observer next ih =>
    obtain ⟨hstore, hparsing⟩ := ih { e with registry := e.registry.erase observer } he
    exact ⟨hstore, hparsing⟩
  | parse text next ih =>
    -- The engine comes back as it was, and so does the handler's turn.
    rw [react, hnested e text he]
    exact ih _ e he

theorem react_of_quiet (hnested : Refuses nested) {r : Reaction σ} (hr : r.Quiet) (e : Engine σ)
    (he : e.parsing = true) : (react nested e r).2 = none := by
  induction r generalizing e with
  | done => rfl
  | remember change next ih => exact ih hr _ he
  | raise fault => exact hr.elim
  | register observer next ih => exact ih hr _ he
  | remove observer next ih => exact ih hr _ he
  | parse text next ih =>
    rw [react, hnested e text he]
    exact ih _ hr e he

theorem keeps_notify (behaviour : Behaviour σ) (hnested : Refuses nested) (event : Event)
    (observers : List ObserverId) (e : Engine σ) (he : e.parsing = true) :
    Keeps e (notify behaviour nested event e observers).1 := by
  induction observers generalizing e with
  | nil => exact .refl e
  | cons observer rest ih =>
    unfold notify
    split
    · exact ih e he
    · rename_i handler hhandler
      have hkeeps := keeps_react hnested (handler event e.store e.memory) e he
      split
      · rename_i e' hreact
        rw [hreact] at hkeeps
        exact hkeeps.trans (ih e' (hkeeps.parsing.trans he))
      · rename_i e' fault hreact
        rw [hreact] at hkeeps
        exact hkeeps

theorem notify_of_quiet (hnested : Refuses nested) (hquiet : behaviour.Quiet) (event : Event)
    (observers : List ObserverId) (e : Engine σ) (he : e.parsing = true) :
    (notify behaviour nested event e observers).2 = none := by
  induction observers generalizing e with
  | nil => rfl
  | cons observer rest ih =>
    unfold notify
    split
    · exact ih e he
    · rename_i handler hhandler
      have hkeeps := keeps_react hnested (handler event e.store e.memory) e he
      have hnone := react_of_quiet hnested (hquiet _ _ _ hhandler event e.store e.memory) e he
      split
      · rename_i e' hreact
        rw [hreact] at hkeeps
        exact ih e' (hkeeps.parsing.trans he)
      · rename_i e' fault hreact
        rw [hreact] at hnone
        cases hnone

/-! ## Commits -/

/-- The engine after a change, before anybody is notified of it. -/
def make (e : Engine σ) (change : Change) : Engine σ := { e with store := e.store.apply change }

theorem commit_of_notified {e e' : Engine σ} {change : Change}
    (h : notify behaviour nested change.event (e.make change) e.registry = (e', none))
    (rest : List Change) :
    commit behaviour nested e (change :: rest) = commit behaviour nested e' rest := by
  unfold make at h
  simp only [commit, h]

theorem commit_of_raised {e e' : Engine σ} {change : Change} {fault : Fault}
    (h : notify behaviour nested change.event (e.make change) e.registry = (e', some fault))
    (rest : List Change) : commit behaviour nested e (change :: rest) = (e', some fault) := by
  unfold make at h
  simp only [commit, h]

/-- The first of the changes is made, and then either the others are, or an observer has raised. -/
theorem commit_cons (behaviour : Behaviour σ) (hnested : Refuses nested) (change : Change)
    (rest : List Change) (e : Engine σ) (he : e.parsing = true) :
    ∃ e', Keeps (e.make change) e' ∧
      match (notify behaviour nested change.event (e.make change) e.registry).2 with
      | none => commit behaviour nested e (change :: rest) = commit behaviour nested e' rest
      | some fault => commit behaviour nested e (change :: rest) = (e', some fault) := by
  have hkeeps := keeps_notify behaviour hnested change.event e.registry (e.make change) he
  refine ⟨_, hkeeps, ?_⟩
  rcases hnotify : notify behaviour nested change.event (e.make change) e.registry with ⟨e', fault⟩
  cases fault with
  | none => exact commit_of_notified hnotify rest
  | some fault => exact commit_of_raised hnotify rest

/-- A commit that nobody stops makes all the changes. -/
theorem store_commit (hnested : Refuses nested) (changes : List Change) (e : Engine σ)
    (he : e.parsing = true) (hnone : (commit behaviour nested e changes).2 = none) :
    (commit behaviour nested e changes).1.store = changes.foldl Store.apply e.store := by
  induction changes generalizing e with
  | nil => rfl
  | cons change rest ih =>
    obtain ⟨e', hkeeps, hcommit⟩ := commit_cons behaviour hnested change rest e he
    split at hcommit
    · rw [hcommit] at hnone ⊢
      rw [ih e' (hkeeps.parsing.trans he) hnone, hkeeps.store]
      rfl
    · rw [hcommit] at hnone
      cases hnone

theorem commit_of_quiet (hnested : Refuses nested) (hquiet : behaviour.Quiet)
    (changes : List Change) (e : Engine σ) (he : e.parsing = true) :
    (commit behaviour nested e changes).2 = none := by
  induction changes generalizing e with
  | nil => rfl
  | cons change rest ih =>
    obtain ⟨e', hkeeps, hcommit⟩ := commit_cons behaviour hnested change rest e he
    rw [notify_of_quiet hnested hquiet _ _ (e.make change) he] at hcommit
    rw [hcommit]
    exact ih e' (hkeeps.parsing.trans he)

/-! ## Parses -/

variable {g : Grammar} {text : String} {e : Engine σ}

/-- The state in which the changes of a parse are made. -/
def begin (e : Engine σ) : Engine σ := { e with parsing := true }

/-- What observers get that ask for a parse while one is running. -/
def inner (g : Grammar) (behaviour : Behaviour σ) : Nested σ := parseTo g behaviour 1

theorem refuses_inner : Refuses (inner g behaviour) := refuses_parseTo g behaviour 1

/-- What the text of a parse comes to, if none was running before. -/
theorem parse_of_error (he : e.parsing = false) {fault : Fault} (h : dumpOf g text = .error fault) :
    e.parse g behaviour text = (e, .error fault) := by
  simp [parse, parseTo, parseWith, he, h]

theorem parse_of_dump (he : e.parsing = false) {dump : Dump} (h : dumpOf g text = .ok dump) :
    e.parse g behaviour text =
      let done := commit behaviour (inner g behaviour) e.begin (e.store.changes dump.snapshots)
      let e' := { done.1 with parsing := false }
      match done.2 <|> dump.fault with
      | none => (e', .ok e'.store.snapshots)
      | some fault => (e', .error fault) := by
  simp only [parse, parseTo, parseWith, he, h]
  rfl

/-- What a text shows of its files: nothing if it cannot be read, and otherwise the snapshots up to
the first file that there is no room for. -/
def shownBy (g : Grammar) (text : String) : List FileSnapshot :=
  match dumpOf g text with
  | .ok dump => dump.snapshots
  | .error _ => []

/-- Observers that never raise do not keep a text from being absorbed as far as it shows. -/
theorem parse_of_quiet (g : Grammar) (text : String) (hquiet : behaviour.Quiet)
    (he : e.parsing = false) :
    (e.parse g behaviour text).1.store = e.store.absorb (shownBy g text) ∧
      (e.parse g behaviour text).1.parsing = false := by
  unfold shownBy
  cases h : dumpOf g text with
  | error fault =>
    rw [parse_of_error he h]
    exact ⟨rfl, he⟩
  | ok dump =>
    have hinner : Refuses (inner g behaviour) := refuses_inner
    have hnone := commit_of_quiet hinner hquiet (e.store.changes dump.snapshots) e.begin rfl
    have hstore := store_commit hinner _ e.begin rfl hnone
    rw [parse_of_dump he h]
    simp only
    split
    · exact ⟨hstore, rfl⟩
    · exact ⟨hstore, rfl⟩

/-- What a parse that succeeds has done, whatever observers it notified. -/
theorem parse_ok {e' : Engine σ} {result : List FileSnapshot}
    (h : e.parse g behaviour text = (e', .ok result)) :
    e.parsing = false ∧ ∃ dump, dumpOf g text = .ok dump ∧ dump.fault = none ∧
      (commit behaviour (inner g behaviour) e.begin (e.store.changes dump.snapshots)).2 = none ∧
      e'.store = e.store.absorb dump.snapshots ∧ result = e'.store.snapshots := by
  have he : e.parsing = false := by
    cases hparsing : e.parsing with
    | false => rfl
    | true =>
      have hrefused := refuses_parseTo g behaviour 2 e text hparsing
      rw [parse, hrefused] at h
      cases h
  cases hdump : dumpOf g text with
  | error fault =>
    rw [parse_of_error he hdump] at h
    cases h
  | ok dump =>
    rw [parse_of_dump he hdump] at h
    simp only at h
    split at h
    · rename_i hnone
      cases h
      obtain ⟨hdone, hfault⟩ := Option.or_eq_none_iff.1 (Option.orElse_eq_or.symm.trans hnone)
      exact ⟨he, dump, rfl, hfault, hdone, store_commit refuses_inner _ e.begin rfl hdone, rfl⟩
    · cases h

end Engine

end BytecodeCoverage
