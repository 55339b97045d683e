-- SUMMARY: What any parse does, whatever its observers do, and runs of calls on an engine.
import BytecodeCoverage.Proofs.Engine.Accumulation
import BytecodeCoverage.Proofs.Engine.Announcement
import BytecodeCoverage.Proofs.Store.Progress

/-!
# Histories

A parse makes the changes of its text up to one at which an observer raises, and announces those
that it makes. If nobody raises it makes them all. In either case it gives the parse free again.

A history is a run of calls, each parse with observers of its own behaviour. Between the calls no
parse is running.
-/

namespace BytecodeCoverage

namespace Engine

variable {σ : Type} {g : Grammar} {behaviour : Behaviour σ} {nested : Nested σ} {text : String}
  {e : Engine σ}

/-! ## Commits that may be stopped -/

/-- What a commit makes of its changes, and what it leaves. -/
structure Stops (behaviour : Behaviour σ) (nested : Nested σ) (e : Engine σ) (changes : List Change)
    (made unmade : List Change) : Prop where
  eq_append : changes = made ++ unmade
  store : (commit behaviour nested e changes).1.store = made.foldl Store.apply e.store
  announced : announced behaviour nested e changes = e.store.announcements made
  complete : (commit behaviour nested e changes).2 = none → unmade = []
  /-- Observers only raise when they are notified of a change. -/
  begun : (commit behaviour nested e changes).2 ≠ none → made ≠ []

/-- By induction on the changes: the first is made, and the others if nobody raises then. -/
theorem exists_stops (behaviour : Behaviour σ) (hnested : Refuses nested) (changes : List Change)
    (e : Engine σ) (he : e.parsing = true) :
    ∃ made unmade, Stops behaviour nested e changes made unmade := by
  induction changes generalizing e with
  | nil => exact ⟨[], [], rfl, rfl, rfl, fun _ => rfl, fun h => absurd rfl h⟩
  | cons change rest ih =>
    have hkeeps := keeps_notify behaviour hnested change.event e.registry (e.make change) he
    rcases hnotify : notify behaviour nested change.event (e.make change) e.registry with
      ⟨e', fault⟩
    rw [hnotify] at hkeeps
    cases fault with
    | some fault =>
      refine ⟨[change], rest, rfl, ?_, ?_, ?_, fun _ => List.cons_ne_nil _ _⟩
      · rw [commit_of_raised hnotify]
        exact hkeeps.store
      · simp only [announced, hnotify]
        rfl
      · intro hnone
        rw [commit_of_raised hnotify] at hnone
        cases hnone
    | none =>
      obtain ⟨made, unmade, h⟩ := ih e' (hkeeps.parsing.trans he)
      have hcommit := commit_of_notified hnotify rest
      refine ⟨change :: made, unmade, congrArg (change :: ·) h.eq_append, ?_, ?_, ?_, ?_⟩
      · rw [hcommit, h.store, hkeeps.store]
        rfl
      · rw [announced_of_notified hnotify, h.announced, hkeeps.store]
        rfl
      · rw [hcommit]
        exact h.complete
      · exact fun _ => List.cons_ne_nil _ _

/-! ## Parses that may be stopped -/

/-- The fault with which an observer ends a parse. -/
def raised (g : Grammar) (behaviour : Behaviour σ) (e : Engine σ) (text : String) : Option Fault :=
  if e.parsing then none
  else
    match dumpOf g text with
    | .error _ => none
    | .ok dump =>
      (commit behaviour (inner g behaviour) e.begin (e.store.changes dump.snapshots)).2

theorem raised_of_error (he : e.parsing = false) {fault : Fault} (h : dumpOf g text = .error fault)
    (behaviour : Behaviour σ) : e.raised g behaviour text = none := by
  simp [raised, he, h]

theorem raised_of_dump (he : e.parsing = false) {dump : Dump} (h : dumpOf g text = .ok dump)
    (behaviour : Behaviour σ) :
    e.raised g behaviour text =
      (commit behaviour (inner g behaviour) e.begin (e.store.changes dump.snapshots)).2 := by
  simp [raised, he, h]

/-- What is wrong with a text. -/
def textFault (g : Grammar) (text : String) : Option Fault :=
  match dumpOf g text with
  | .error fault => some fault
  | .ok dump => dump.fault

/-- What a parse makes of the changes of its text, and what it leaves. -/
structure Makes (g : Grammar) (behaviour : Behaviour σ) (e : Engine σ) (text : String)
    (made unmade : List Change) : Prop where
  eq_append : e.store.changes (shownBy g text) = made ++ unmade
  store : (e.parse g behaviour text).1.store = made.foldl Store.apply e.store
  dispatched : e.dispatched g behaviour text = e.store.announcements made
  complete : e.raised g behaviour text = none → unmade = []
  begun : e.raised g behaviour text ≠ none → made ≠ []

theorem exists_makes (g : Grammar) (behaviour : Behaviour σ) (text : String)
    (he : e.parsing = false) : ∃ made unmade, Makes g behaviour e text made unmade := by
  cases h : dumpOf g text with
  | error fault =>
    have hshown : shownBy g text = [] := by rw [shownBy, h]
    have hraised := raised_of_error he h behaviour
    refine ⟨[], [], ?_, ?_, ?_, fun _ => rfl, fun hne => absurd hraised hne⟩
    · rw [hshown]
      rfl
    · rw [parse_of_error he h]
      rfl
    · rw [dispatched_of_error he h]
      rfl
  | ok dump =>
    have hshown : shownBy g text = dump.snapshots := by rw [shownBy, h]
    obtain ⟨made, unmade, hstops⟩ := exists_stops behaviour (refuses_inner (g := g))
      (e.store.changes dump.snapshots) e.begin rfl
    refine ⟨made, unmade, ?_, ?_, ?_, ?_, ?_⟩
    · rw [hshown]
      exact hstops.eq_append
    · rw [parse_of_dump he h]
      simp only
      split
      · exact hstops.store
      · exact hstops.store
    · rw [dispatched_of_dump he h]
      exact hstops.announced
    · rw [raised_of_dump he h]
      exact hstops.complete
    · rw [raised_of_dump he h]
      exact hstops.begun

/-- Whatever observers do, the parse is free again after it. -/
theorem parsing_parse (he : e.parsing = false) : (e.parse g behaviour text).1.parsing = false := by
  cases h : dumpOf g text with
  | error fault =>
    rw [parse_of_error he h]
    exact he
  | ok dump =>
    rw [parse_of_dump he h]
    simp only
    split
    · rfl
    · rfl

/-- A parse fails for what an observer raises, or else for what is wrong with its text. -/
theorem result_parse (he : e.parsing = false) :
    (e.parse g behaviour text).2 =
      match e.raised g behaviour text <|> textFault g text with
      | none => .ok (e.parse g behaviour text).1.store.snapshots
      | some fault => .error fault := by
  cases h : dumpOf g text with
  | error fault =>
    have hfault : textFault g text = some fault := by rw [textFault, h]
    rw [raised_of_error he h, hfault, parse_of_error he h]
    rfl
  | ok dump =>
    have hfault : textFault g text = dump.fault := by rw [textFault, h]
    rw [raised_of_dump he h, hfault, parse_of_dump he h]
    simp only
    cases (commit behaviour (inner g behaviour) e.begin (e.store.changes dump.snapshots)).2 <|>
        dump.fault with
    | none => rfl
    | some fault => rfl

theorem raised_of_quiet (hquiet : behaviour.Quiet) (e : Engine σ) (text : String) :
    e.raised g behaviour text = none := by
  unfold raised
  split
  · rfl
  · split
    · rfl
    · exact commit_of_quiet refuses_inner hquiet _ e.begin rfl

/-! ## Runs of calls -/

/-- A call on an engine from outside. -/
inductive Call (σ : Type) where
  /-- A parse. While it runs, observers behave as it is said here. -/
  | parse (behaviour : Behaviour σ) (text : String)
  | addObserver (observer : ObserverId)
  | removeObserver (observer : ObserverId)

/-- The engine after a call, however the call ends. -/
def perform (g : Grammar) (e : Engine σ) : Call σ → Engine σ
  | .parse behaviour text => (e.parse g behaviour text).1
  | .addObserver observer => e.addObserver observer
  | .removeObserver observer => e.removeObserver observer

/-- The engine after one call after the other. -/
def performAll (g : Grammar) (e : Engine σ) (calls : List (Call σ)) : Engine σ :=
  calls.foldl (perform g) e

theorem parsing_perform (he : e.parsing = false) (call : Call σ) :
    (e.perform g call).parsing = false := by
  cases call with
  | parse behaviour text => exact parsing_parse he
  | addObserver observer => exact he
  | removeObserver observer => exact he

theorem parsing_performAll (he : e.parsing = false) (calls : List (Call σ)) :
    (performAll g e calls).parsing = false := by
  induction calls generalizing e with
  | nil => exact he
  | cons call rest ih => exact ih (parsing_perform he call)

end Engine

end BytecodeCoverage
