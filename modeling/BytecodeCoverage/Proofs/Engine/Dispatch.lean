-- SUMMARY: Each dispatch calls the observers that are registered when it begins, and they agree.
import BytecodeCoverage.Proofs.Engine.History

/-!
# Dispatches

While observers are notified they may register and remove each other. Who is notified of an event is
settled before the first handler runs, so all of that counts for the next event at the earliest.

Handlers cannot see the calls of other handlers. To say who is called, and with what, the same
handlers are run with a note of each of their deeds: that they were called, and what they did to the
registry. The notes do not change what a parse does.
-/

namespace BytecodeCoverage

variable {σ : Type}

/-! ## Deeds -/

/-- What happens to an observer while a parse runs. -/
inductive Deed where
  | heard (observer : ObserverId) (announcement : Announcement)
  | registered (observer : ObserverId)
  | removed (observer : ObserverId)
  deriving Repr, DecidableEq

def Deed.applyTo (registry : Registry) : Deed → Registry
  | .heard .. => registry
  | .registered observer => registry ++ [observer]
  | .removed observer => registry.erase observer

/-- The registry after some deeds. -/
def registryAfter (registry : Registry) (deeds : List Deed) : Registry :=
  deeds.foldl Deed.applyTo registry

/-- The calls of handlers among some deeds, in their order. -/
def callsAmong (deeds : List Deed) : List (ObserverId × Announcement) :=
  deeds.filterMap fun
    | .heard observer announcement => some (observer, announcement)
    | _ => none

/-- What an observer hears, in order. -/
def heardBy (observer : ObserverId) (deeds : List Deed) : List Announcement :=
  (callsAmong deeds).filterMap fun call => if call.1 = observer then some call.2 else none

@[simp] theorem registryAfter_append (registry : Registry) (first second : List Deed) :
    registryAfter registry (first ++ second) =
      registryAfter (registryAfter registry first) second :=
  List.foldl_append

@[simp] theorem callsAmong_append (first second : List Deed) :
    callsAmong (first ++ second) = callsAmong first ++ callsAmong second :=
  List.filterMap_append

@[simp] theorem heardBy_append (observer : ObserverId) (first second : List Deed) :
    heardBy observer (first ++ second) = heardBy observer first ++ heardBy observer second := by
  simp [heardBy]

/-! ## Notes -/

/-- The program with a note of what it does to the registry. -/
def Reaction.noting : Reaction σ → Reaction (σ × List Deed)
  | .done => .done
  | .remember change next => .remember (fun m => (change m.1, m.2)) next.noting
  | .raise fault => .raise fault
  | .register observer next =>
    .remember (fun m => (m.1, m.2 ++ [.registered observer])) (.register observer next.noting)
  | .remove observer next =>
    .remember (fun m => (m.1, m.2 ++ [.removed observer])) (.remove observer next.noting)
  | .parse text next => .parse text fun result => (next result).noting

/-- The same handlers, each with a note that it is called and of what it does. -/
def Behaviour.noting (behaviour : Behaviour σ) : Behaviour (σ × List Deed) := fun observer kind =>
  (behaviour observer kind).map fun handler event store memory =>
    .remember (fun m => (m.1, m.2 ++ [.heard observer ⟨event.kind, event.notice store⟩]))
      (handler event store memory.1).noting

/-- The registered observers that have a handler for a kind of event, in order. -/
def audience (behaviour : Behaviour σ) (registry : Registry) (kind : EventKind) :
    List ObserverId :=
  registry.filter fun observer => (behaviour observer kind).isSome

namespace Engine

/-- The engine with some notes in its memory. -/
def noting (e : Engine σ) (notes : List Deed) : Engine (σ × List Deed) :=
  { store := e.store, registry := e.registry, parsing := e.parsing, memory := (e.memory, notes) }

@[simp] theorem noting_store (e : Engine σ) (notes : List Deed) :
    (e.noting notes).store = e.store := rfl

@[simp] theorem noting_memory (e : Engine σ) (notes : List Deed) :
    (e.noting notes).memory = (e.memory, notes) := rfl

/-- All that happens to observers while a text is parsed. -/
def deeds (g : Grammar) (behaviour : Behaviour σ) (e : Engine σ) (text : String) : List Deed :=
  ((e.noting []).parse g behaviour.noting text).1.memory.2

variable {behaviour : Behaviour σ} {nested : Nested σ} {nested' : Nested (σ × List Deed)}

/-- A run with notes does what the run without them does, and adds deeds to the notes. -/
structure Adds (e : Engine σ) (notes : List Deed) (plain : Engine σ × Option Fault)
    (noted : Engine (σ × List Deed) × Option Fault) (deeds : List Deed) : Prop where
  eq : noted = (plain.1.noting (notes ++ deeds), plain.2)
  registry : plain.1.registry = registryAfter e.registry deeds

theorem Adds.after {e e' : Engine σ} {notes first second : List Deed}
    {plain : Engine σ × Option Fault} {noted : Engine (σ × List Deed) × Option Fault}
    (hadds : Adds e' (notes ++ first) plain noted second)
    (hregistry : e'.registry = registryAfter e.registry first) :
    Adds e notes plain noted (first ++ second) := by
  obtain ⟨heq, hafter⟩ := hadds
  exact ⟨by rw [heq, List.append_assoc], by rw [hafter, hregistry, registryAfter_append]⟩

/-- By induction on the program. A program calls nobody. -/
theorem exists_adds_react (hnested : Refuses nested) (hnested' : Refuses nested') (r : Reaction σ)
    (e : Engine σ) (he : e.parsing = true) (notes : List Deed) :
    ∃ deeds, Adds e notes (react nested e r) (react nested' (e.noting notes) r.noting) deeds ∧
      callsAmong deeds = [] := by
  induction r generalizing e notes with
  | done => exact ⟨[], ⟨by simp [Reaction.noting, react], rfl⟩, rfl⟩
  | remember change next ih =>
    obtain ⟨deeds, hadds, hcalls⟩ := ih { e with memory := change e.memory } he notes
    exact ⟨deeds, ⟨hadds.eq, hadds.registry⟩, hcalls⟩
  | raise fault => exact ⟨[], ⟨by simp [Reaction.noting, react], rfl⟩, rfl⟩
  | register observer next ih =>
    obtain ⟨deeds, hadds, hcalls⟩ := ih { e with registry := e.registry ++ [observer] } he
      (notes ++ [.registered observer])
    exact ⟨_, hadds.after rfl, hcalls⟩
  | remove observer next ih =>
    obtain ⟨deeds, hadds, hcalls⟩ := ih { e with registry := e.registry.erase observer } he
      (notes ++ [.removed observer])
    exact ⟨_, hadds.after rfl, hcalls⟩
  | parse text next ih =>
    rw [Reaction.noting, react, react, hnested e text he, hnested' (e.noting notes) text he]
    exact ih _ e he notes

/-- By induction on those that are still to be notified. The registry may change meanwhile, but
nobody looks at it. -/
theorem exists_adds_notify (behaviour : Behaviour σ) (hnested : Refuses nested)
    (hnested' : Refuses nested') (event : Event) (observers : List ObserverId) (e : Engine σ)
    (he : e.parsing = true) (notes : List Deed) :
    ∃ deeds, Adds e notes (notify behaviour nested event e observers)
        (notify behaviour.noting nested' event (e.noting notes) observers) deeds ∧
      ((notify behaviour nested event e observers).2 = none →
        callsAmong deeds = (audience behaviour observers event.kind).map
          (·, ⟨event.kind, event.notice e.store⟩)) := by
  induction observers generalizing e notes with
  | nil => exact ⟨[], ⟨by simp [notify], rfl⟩, fun _ => rfl⟩
  | cons observer rest ih =>
    cases hhandler : behaviour observer event.kind with
    | none =>
      obtain ⟨deeds, hadds, hcalls⟩ := ih e he notes
      refine ⟨deeds, ?_, ?_⟩
      · simpa only [notify, Behaviour.noting, hhandler, Option.map_none] using hadds
      · simpa [notify, audience, hhandler] using hcalls
    | some handler =>
      have hkeeps := keeps_react hnested (handler event e.store e.memory) e he
      obtain ⟨deeds, hadds, hcalls⟩ := exists_adds_react hnested hnested'
        (handler event e.store e.memory) e he
        (notes ++ [.heard observer ⟨event.kind, event.notice e.store⟩])
      have hcalled := hadds.after (e := e) rfl
      rcases hreact : react nested e (handler event e.store e.memory) with ⟨e', fault⟩
      rw [hreact] at hkeeps hcalled
      have hnoted : react nested' (e.noting notes)
          (.remember (fun m => (m.1, m.2 ++ [.heard observer ⟨event.kind, event.notice e.store⟩]))
            (handler event e.store e.memory).noting) =
          (e'.noting _, fault) := hcalled.eq
      simp only [notify, Behaviour.noting, hhandler, hreact, Option.map_some, noting_store,
        noting_memory, hnoted]
      cases fault with
      | some fault =>
        exact ⟨_, ⟨rfl, hcalled.registry⟩, fun hnone => absurd hnone (Option.some_ne_none _)⟩
      | none =>
        obtain ⟨deeds', hadds', hcalls'⟩ := ih e' (hkeeps.parsing.trans he) (notes ++ _)
        refine ⟨_, hadds'.after hcalled.registry, fun hnone => ?_⟩
        rw [callsAmong_append, callsAmong_append, hcalls, hcalls' hnone, hkeeps.store]
        simp [audience, callsAmong, hhandler]

/-! ## Turns -/

/-- One turn of deeds for each announcement: its audience, as it is registered when the turn begins,
is called once for each registration and in that order, and hears what is announced. -/
inductive Turns (behaviour : Behaviour σ) :
    Registry → List Announcement → List (List Deed) → Prop where
  | done (registry : Registry) : Turns behaviour registry [] []
  | turn {registry : Registry} {a : Announcement} {rest : List Announcement} {deeds : List Deed}
      {turns : List (List Deed)}
      (hcalls : callsAmong deeds = (audience behaviour registry a.kind).map (·, a))
      (hrest : Turns behaviour (registryAfter registry deeds) rest turns) :
      Turns behaviour registry (a :: rest) (deeds :: turns)

/-- By induction on the changes: each is announced in a turn of its own. -/
theorem exists_adds_commit (behaviour : Behaviour σ) (hnested : Refuses nested)
    (hnested' : Refuses nested') (changes : List Change) (e : Engine σ) (he : e.parsing = true)
    (notes : List Deed) :
    ∃ turns, Adds e notes (commit behaviour nested e changes)
        (commit behaviour.noting nested' (e.noting notes) changes) turns.flatten ∧
      ((commit behaviour nested e changes).2 = none →
        Turns behaviour e.registry (announced behaviour nested e changes) turns) := by
  induction changes generalizing e notes with
  | nil => exact ⟨[], ⟨by simp [commit], rfl⟩, fun _ => .done _⟩
  | cons change rest ih =>
    have hkeeps := keeps_notify behaviour hnested change.event e.registry (e.make change) he
    obtain ⟨deeds, hadds, hcalls⟩ := exists_adds_notify behaviour hnested hnested' change.event
      e.registry (e.make change) he notes
    rcases hnotify : notify behaviour nested change.event (e.make change) e.registry with
      ⟨e', fault⟩
    rw [hnotify] at hkeeps hadds hcalls
    cases fault with
    | some fault =>
      refine ⟨[deeds], ?_, ?_⟩
      · rw [commit_of_raised hnotify, commit_of_raised hadds.eq]
        exact ⟨by simp, by simpa [make] using hadds.registry⟩
      · rw [commit_of_raised hnotify]
        exact fun hnone => absurd hnone (Option.some_ne_none _)
    | none =>
      obtain ⟨turns, hadds', hturns⟩ := ih e' (hkeeps.parsing.trans he) (notes ++ deeds)
      refine ⟨deeds :: turns, ?_, ?_⟩
      · rw [commit_of_notified hnotify, commit_of_notified hadds.eq]
        exact hadds'.after hadds.registry
      · rw [commit_of_notified hnotify, announced_of_notified hnotify]
        intro hnone
        refine .turn (hcalls rfl) ?_
        have hregistry : e'.registry = registryAfter e.registry deeds := hadds.registry
        rw [← hregistry]
        exact hturns hnone

variable {g : Grammar} {text : String} {e : Engine σ}

theorem exists_turns_parse (g : Grammar) (behaviour : Behaviour σ) (e : Engine σ) (text : String) :
    ∃ turns,
      (e.noting []).parse g behaviour.noting text =
        ((e.parse g behaviour text).1.noting turns.flatten, (e.parse g behaviour text).2) ∧
      (e.raised g behaviour text = none →
        Turns behaviour e.registry (e.dispatched g behaviour text) turns) := by
  cases he : e.parsing with
  | true =>
    refine ⟨[], ?_, ?_⟩
    · rw [parse, parse, refuses_parseTo g behaviour.noting 2 (e.noting []) text he,
        refuses_parseTo g behaviour 2 e text he]
      rfl
    · intro _
      rw [dispatched, if_pos he]
      exact .done _
  | false =>
    cases h : dumpOf g text with
    | error fault =>
      refine ⟨[], ?_, ?_⟩
      · rw [parse_of_error he h, parse_of_error (e := e.noting []) he h]
        rfl
      · intro _
        rw [dispatched_of_error he h]
        exact .done _
    | ok dump =>
      have hinner : Refuses (inner g behaviour) := refuses_inner
      have hinner' : Refuses (inner g behaviour.noting) := refuses_inner
      obtain ⟨turns, hadds, hturns⟩ := exists_adds_commit behaviour hinner hinner'
        (e.store.changes dump.snapshots) e.begin rfl []
      refine ⟨turns, ?_, ?_⟩
      · have hcommit : commit behaviour.noting (inner g behaviour.noting) (e.noting []).begin
            ((e.noting []).store.changes dump.snapshots) = _ := hadds.eq
        rw [parse_of_dump he h, parse_of_dump (e := e.noting []) he h, hcommit]
        simp only [List.nil_append]
        split <;> rfl
      · rw [raised_of_dump he h, dispatched_of_dump he h]
        exact hturns

theorem deeds_eq {turns : List (List Deed)} {plain : Engine σ × ParseResult}
    (h : (e.noting []).parse g behaviour.noting text = (plain.1.noting turns.flatten, plain.2)) :
    e.deeds g behaviour text = turns.flatten := by
  rw [deeds, h]
  rfl

end Engine

/-! ## Observers that attend -/

/-- The observer has all handlers, is registered once, and is left alone meanwhile: nobody removes
it and nobody registers it again. -/
structure Attends (behaviour : Behaviour σ) (registry : Registry) (deeds : List Deed)
    (observer : ObserverId) : Prop where
  handles : ∀ kind, (behaviour observer kind).isSome
  once : registry.count observer = 1
  kept : .removed observer ∉ deeds
  single : .registered observer ∉ deeds

section Attendance

variable {behaviour : Behaviour σ} {registry : Registry} {observer : ObserverId}

theorem count_registryAfter (registry : Registry) {deeds : List Deed}
    (hkept : .removed observer ∉ deeds) (hsingle : .registered observer ∉ deeds) :
    (registryAfter registry deeds).count observer = registry.count observer := by
  induction deeds generalizing registry with
  | nil => rfl
  | cons deed rest ih =>
    simp only [List.mem_cons, not_or] at hkept hsingle
    refine (ih _ hkept.2 hsingle.2).trans ?_
    cases deed with
    | heard other a => rfl
    | registered other =>
      have hne : other ≠ observer := fun h => hsingle.1 (h ▸ rfl)
      simp [Deed.applyTo, hne]
    | removed other =>
      have hne : observer ≠ other := fun h => hkept.1 (h ▸ rfl)
      simp [Deed.applyTo, List.count_erase_of_ne hne]

/-- In a turn, an observer hears the announcement once for each time that it is registered. -/
theorem heardBy_of_calls {deeds : List Deed} {a : Announcement}
    (hhandles : (behaviour observer a.kind).isSome)
    (hcalls : callsAmong deeds = (audience behaviour registry a.kind).map (·, a)) :
    heardBy observer deeds = List.replicate (registry.count observer) a := by
  have hheard : ∀ observers : List ObserverId,
      ((observers.map (·, a)).filterMap fun call =>
        if call.1 = observer then some call.2 else none) =
        List.replicate (observers.count observer) a := by
    intro observers
    induction observers with
    | nil => rfl
    | cons other rest ih =>
      by_cases h : other = observer
      · simpa [h, List.replicate_succ] using ih
      · simpa [h] using ih
  rw [heardBy, hcalls, hheard]
  exact congrArg (List.replicate · a) (List.count_filter hhandles)

/-- By induction on the turns: each leaves the observer as it is, so it hears them all. -/
theorem Engine.Turns.heardBy_eq {announcements : List Announcement} {turns : List (List Deed)}
    (h : Engine.Turns behaviour registry announcements turns)
    (hattends : Attends behaviour registry turns.flatten observer) :
    heardBy observer turns.flatten = announcements := by
  induction h with
  | done registry => rfl
  | @turn registry a rest deeds turns hcalls hrest ih =>
    obtain ⟨hhandles, honce, hkept, hsingle⟩ := hattends
    simp only [List.flatten_cons, List.mem_append, not_or] at hkept hsingle
    have hcount := count_registryAfter registry hkept.1 hsingle.1
    rw [List.flatten_cons, heardBy_append, heardBy_of_calls (hhandles a.kind) hcalls, honce,
      ih ⟨hhandles, hcount.trans honce, hkept.2, hsingle.2⟩]
    rfl

end Attendance

/-! ## Agreement -/

namespace Engine

/-- Observers agree. If nobody raises while a text is parsed, each dispatch calls the observers that
are registered when it begins and have a handler for it, once for each registration and in that
order, whatever they do to the registry meanwhile and whatever parses they ask for. So an observer
that attends hears all that is dispatched, and any two of them hear the same. What is said of the
deeds is said of the parse itself: the notes of them change nothing. -/
theorem parse_calls_audience {g : Grammar} {behaviour : Behaviour σ} {e : Engine σ} {text : String}
    (h : e.raised g behaviour text = none) :
    (e.noting []).parse g behaviour.noting text =
      ((e.parse g behaviour text).1.noting (e.deeds g behaviour text),
        (e.parse g behaviour text).2) ∧
    (∃ turns, e.deeds g behaviour text = turns.flatten ∧
      Turns behaviour e.registry (e.dispatched g behaviour text) turns) ∧
    (∀ observer, Attends behaviour e.registry (e.deeds g behaviour text) observer →
      heardBy observer (e.deeds g behaviour text) = e.dispatched g behaviour text) ∧
    ∀ a b, Attends behaviour e.registry (e.deeds g behaviour text) a →
      Attends behaviour e.registry (e.deeds g behaviour text) b →
        heardBy a (e.deeds g behaviour text) = heardBy b (e.deeds g behaviour text) := by
  obtain ⟨turns, hparse, hturns⟩ := exists_turns_parse g behaviour e text
  have hdeeds := deeds_eq hparse
  have hheard : ∀ observer, Attends behaviour e.registry (e.deeds g behaviour text) observer →
      heardBy observer (e.deeds g behaviour text) = e.dispatched g behaviour text := by
    intro observer hattends
    rw [hdeeds] at hattends ⊢
    exact (hturns h).heardBy_eq hattends
  refine ⟨?_, ⟨turns, hdeeds, hturns h⟩, hheard, ?_⟩
  · rw [hdeeds]
    exact hparse
  · intro a b ha hb
    rw [hheard a ha, hheard b hb]

/-- The second observer leaves as soon as it hears something, and puts another in its place. It asks
for a parse and does not mind the refusal. -/
def leaving : Behaviour Unit := fun observer _ =>
  some fun _ _ _ =>
    if observer = 1 then .remove 1 (.register 3 (.parse "" fun _ => .done)) else .done

/-- Two files, with a line each. -/
def twoFiles : String :=
  "--- SCRIPT a.js:1 ---\n0:1/0/0 x 1 stop\n--- END SCRIPT ---\n" ++
    "--- SCRIPT b.js:1 ---\n0:1/0/0 x 1 stop\n--- END SCRIPT ---"

theorem parse_leaving :
    let e : Engine Unit := { registry := [0, 1, 2], memory := () }
    e.raised {} leaving twoFiles = none ∧ .removed 1 ∈ e.deeds {} leaving twoFiles ∧
      heardBy 0 (e.deeds {} leaving twoFiles) = heardBy 2 (e.deeds {} leaving twoFiles) := by
  intro e
  have hraised : e.raised {} leaving twoFiles = none := by decide +kernel
  obtain ⟨hremoved, hmoves⟩ : .removed 1 ∈ e.deeds {} leaving twoFiles ∧
      ∀ deed ∈ e.deeds {} leaving twoFiles, callsAmong [deed] = [] →
        deed = .removed 1 ∨ deed = .registered 3 := by decide +kernel
  have hattends : ∀ observer, observer = 0 ∨ observer = 2 →
      Attends leaving e.registry (e.deeds {} leaving twoFiles) observer := by
    rintro observer (rfl | rfl)
    · exact ⟨fun _ => rfl, by decide, fun h => by simpa using hmoves _ h rfl,
        fun h => by simpa using hmoves _ h rfl⟩
    · exact ⟨fun _ => rfl, by decide, fun h => by simpa using hmoves _ h rfl,
        fun h => by simpa using hmoves _ h rfl⟩
  obtain ⟨-, -, -, hagree⟩ := parse_calls_audience hraised
  exact ⟨hraised, hremoved, hagree 0 2 (hattends 0 (.inl rfl)) (hattends 2 (.inr rfl))⟩

/-- The first observer registers the second once more. -/
def doubling : Behaviour Unit := fun observer _ =>
  some fun _ _ _ => if observer = 0 then .register 1 .done else .done

/-- To be registered once before the parse and not to be removed is not enough. -/
theorem heardBy_doubling :
    let e : Engine Unit := { registry := [0, 1], memory := () }
    e.raised {} doubling twoFiles = none ∧
      (∀ observer kind, (doubling observer kind).isSome) ∧
      e.registry.count 0 = 1 ∧ e.registry.count 1 = 1 ∧
      .removed 0 ∉ e.deeds {} doubling twoFiles ∧ .removed 1 ∉ e.deeds {} doubling twoFiles ∧
      heardBy 0 (e.deeds {} doubling twoFiles) ≠ heardBy 1 (e.deeds {} doubling twoFiles) := by
  refine ⟨by decide +kernel, fun _ _ => rfl, by decide, by decide, ?_⟩
  decide +kernel

end Engine

end BytecodeCoverage
