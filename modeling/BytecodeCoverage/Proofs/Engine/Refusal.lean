-- SUMMARY: Parses that observers ask for are refused, and nothing comes of them.
import BytecodeCoverage.Proofs.Engine.History
import BytecodeCoverage.Proofs.Session.Texts

/-!
# Refused parses

While a parse runs, whoever is notified may ask for another, in any handler and as often as they
like. Each time the guard refuses it, and the engine is as it was. So a handler that asks does what
it would do if it knew of the refusal and did not ask, and so does the parse that notifies it.

When the parse has ended, in whatever way, the guard is free and no call from outside is refused.
-/

namespace BytecodeCoverage

variable {σ : Type}

/-! ## Handlers that do not ask -/

/-- The program without its parses. In the place of each it goes on as after a refusal. -/
def Reaction.unasking : Reaction σ → Reaction σ
  | .done => .done
  | .remember change next => .remember change next.unasking
  | .raise fault => .raise fault
  | .register observer next => .register observer next.unasking
  | .remove observer next => .remove observer next.unasking
  | .parse _ next => (next (.error .reentrantParse)).unasking

/-- The same handlers without their parses. -/
def Behaviour.unasking (behaviour : Behaviour σ) : Behaviour σ := fun observer kind =>
  (behaviour observer kind).map fun handler event store memory =>
    (handler event store memory).unasking

namespace Engine

/-- The same call with observers that do not ask for parses. -/
def Call.unasking : Call σ → Call σ
  | .parse behaviour text => .parse behaviour.unasking text
  | .addObserver observer => .addObserver observer
  | .removeObserver observer => .removeObserver observer

variable {g : Grammar} {behaviour : Behaviour σ} {nested nested' : Nested σ} {text : String}
  {e : Engine σ}

/-! ## What is asked for -/

/-- The parses that a handler asks for, each with the engine at that time. -/
def reactAsks (nested : Nested σ) : Engine σ → Reaction σ → List (Engine σ × String)
  | _, .done => []
  | e, .remember change next => reactAsks nested { e with memory := change e.memory } next
  | _, .raise _ => []
  | e, .register observer next =>
    reactAsks nested { e with registry := e.registry ++ [observer] } next
  | e, .remove observer next =>
    reactAsks nested { e with registry := e.registry.erase observer } next
  | e, .parse text next =>
    (e, text) :: reactAsks nested (nested e text).1 (next (nested e text).2)

/-- The parses that observers ask for when they are notified of an event. -/
def notifyAsks (behaviour : Behaviour σ) (nested : Nested σ) (event : Event) :
    Engine σ → List ObserverId → List (Engine σ × String)
  | _, [] => []
  | e, observer :: rest =>
    match behaviour observer event.kind with
    | none => notifyAsks behaviour nested event e rest
    | some handler =>
      reactAsks nested e (handler event e.store e.memory) ++
        match react nested e (handler event e.store e.memory) with
        | (e', none) => notifyAsks behaviour nested event e' rest
        | (_, some _) => []

/-- The parses that observers ask for while changes are made. -/
def commitAsks (behaviour : Behaviour σ) (nested : Nested σ) :
    Engine σ → List Change → List (Engine σ × String)
  | _, [] => []
  | e, change :: rest =>
    notifyAsks behaviour nested change.event (e.make change) e.registry ++
      match notify behaviour nested change.event (e.make change) e.registry with
      | (e', none) => commitAsks behaviour nested e' rest
      | (_, some _) => []

/-- All that is asked for while a parse runs. -/
def asked (g : Grammar) (behaviour : Behaviour σ) (e : Engine σ) (text : String) :
    List (Engine σ × String) :=
  if e.parsing then []
  else
    match dumpOf g text with
    | .error _ => []
    | .ok dump =>
      commitAsks behaviour (parse g behaviour) e.begin (e.store.changes dump.snapshots)

/-- By induction on the program. What is asked for meanwhile is refused, so the parse still runs. -/
theorem parsing_of_mem_reactAsks (hnested : Refuses nested) {r : Reaction σ} (he : e.parsing = true)
    {ask : Engine σ × String} (hask : ask ∈ reactAsks nested e r) : ask.1.parsing = true := by
  induction r generalizing e with
  | done => cases hask
  | remember change next ih => exact ih (e := { e with memory := change e.memory }) he hask
  | raise fault => cases hask
  | register observer next ih =>
    exact ih (e := { e with registry := e.registry ++ [observer] }) he hask
  | remove observer next ih =>
    exact ih (e := { e with registry := e.registry.erase observer }) he hask
  | parse text next ih =>
    rw [reactAsks, hnested e text he] at hask
    cases hask with
    | head => exact he
    | tail _ hask => exact ih _ he hask

theorem parsing_of_mem_notifyAsks (hnested : Refuses nested) {event : Event}
    {observers : List ObserverId} (he : e.parsing = true) {ask : Engine σ × String}
    (hask : ask ∈ notifyAsks behaviour nested event e observers) : ask.1.parsing = true := by
  induction observers generalizing e with
  | nil => cases hask
  | cons observer rest ih =>
    unfold notifyAsks at hask
    split at hask
    · exact ih he hask
    · rename_i handler hhandler
      have hkeeps := keeps_react hnested (handler event e.store e.memory) e he
      rcases List.mem_append.1 hask with hask | hask
      · exact parsing_of_mem_reactAsks hnested he hask
      · split at hask
        · rename_i e' hreact
          rw [hreact] at hkeeps
          exact ih (hkeeps.parsing.trans he) hask
        · cases hask

theorem parsing_of_mem_commitAsks (hnested : Refuses nested) {changes : List Change}
    (he : e.parsing = true) {ask : Engine σ × String}
    (hask : ask ∈ commitAsks behaviour nested e changes) : ask.1.parsing = true := by
  induction changes generalizing e with
  | nil => cases hask
  | cons change rest ih =>
    have hkeeps := keeps_notify behaviour hnested change.event e.registry (e.make change) he
    rcases List.mem_append.1 hask with hask | hask
    · exact parsing_of_mem_notifyAsks hnested (e := e.make change) he hask
    · split at hask
      · rename_i e' hnotify
        rw [hnotify] at hkeeps
        exact ih (hkeeps.parsing.trans he) hask
      · cases hask

/-- Whatever is asked for is asked for while the parse runs. -/
theorem parsing_of_mem_asked {ask : Engine σ × String} (hask : ask ∈ e.asked g behaviour text) :
    ask.1.parsing = true := by
  unfold asked at hask
  split at hask
  · cases hask
  · split at hask
    · cases hask
    · exact parsing_of_mem_commitAsks (refuses_parseTo g behaviour 2) (e := e.begin) rfl hask

/-! ## Nothing else is asked for -/

/-- By induction on the program: answers to what it asks for are all that it takes from outside. -/
theorem react_congr {r : Reaction σ}
    (h : ∀ ask ∈ reactAsks nested e r, nested' ask.1 ask.2 = nested ask.1 ask.2) :
    react nested' e r = react nested e r := by
  induction r generalizing e with
  | done => rfl
  | remember change next ih => exact ih h
  | raise fault => rfl
  | register observer next ih => exact ih h
  | remove observer next ih => exact ih h
  | parse text next ih =>
    rw [react, react, h (e, text) (.head _)]
    exact ih _ fun ask hask => h ask (.tail _ hask)

theorem notify_congr {event : Event} {observers : List ObserverId}
    (h : ∀ ask ∈ notifyAsks behaviour nested event e observers,
      nested' ask.1 ask.2 = nested ask.1 ask.2) :
    notify behaviour nested' event e observers = notify behaviour nested event e observers := by
  induction observers generalizing e with
  | nil => rfl
  | cons observer rest ih =>
    unfold notifyAsks at h
    cases hhandler : behaviour observer event.kind with
    | none =>
      rw [hhandler] at h
      simpa only [notify, hhandler] using ih h
    | some handler =>
      rw [hhandler] at h
      have hreact := react_congr fun ask hask => h ask (List.mem_append_left _ hask)
      simp only [notify, hhandler, hreact]
      rcases hdone : react nested e (handler event e.store e.memory) with ⟨e', _ | fault⟩
      · refine ih fun ask hask => h ask (List.mem_append_right _ ?_)
        simpa only [hdone] using hask
      · rfl

theorem commit_congr {changes : List Change}
    (h : ∀ ask ∈ commitAsks behaviour nested e changes,
      nested' ask.1 ask.2 = nested ask.1 ask.2) :
    commit behaviour nested' e changes = commit behaviour nested e changes := by
  induction changes generalizing e with
  | nil => rfl
  | cons change rest ih =>
    unfold commitAsks at h
    have hsame := notify_congr fun ask hask => h ask (List.mem_append_left _ hask)
    rcases hdone : notify behaviour nested change.event (e.make change) e.registry with
      ⟨e', _ | fault⟩
    · rw [commit_of_notified hdone, commit_of_notified (hsame.trans hdone)]
      refine ih fun ask hask => h ask (List.mem_append_right _ ?_)
      simpa only [hdone] using hask
    · rw [commit_of_raised hdone, commit_of_raised (hsame.trans hdone)]

/-- Whoever answers what is asked for as a parse does makes it the same parse. -/
theorem parseWith_congr (nested' : Nested σ)
    (h : ∀ ask ∈ e.asked g behaviour text, nested' ask.1 ask.2 = ask.1.parse g behaviour ask.2) :
    parseWith g behaviour nested' e text = parseWith g behaviour (parse g behaviour) e text := by
  unfold asked at h
  unfold parseWith
  split
  · rfl
  · rename_i hparsing
    rw [if_neg hparsing] at h
    split
    · rfl
    · rename_i dump hdump
      rw [hdump] at h
      have hcommit := commit_congr h
      unfold begin at hcommit
      rw [hcommit]

/-- A parse is refused whenever it is asked for, however deep the parses in parses may go. -/
theorem parse_eq_parseWith (g : Grammar) (behaviour : Behaviour σ) (e : Engine σ) (text : String) :
    e.parse g behaviour text = parseWith g behaviour (parse g behaviour) e text := by
  refine parseWith_congr (inner g behaviour) fun ask hask => ?_
  have hparsing := parsing_of_mem_asked hask
  exact (refuses_inner _ _ hparsing).trans (refuses_parseTo g behaviour 2 _ _ hparsing).symm

/-! ## The same parse without the asking -/

theorem reactAsks_unasking (nested : Nested σ) (r : Reaction σ) (e : Engine σ) :
    reactAsks nested e r.unasking = [] := by
  induction r generalizing e with
  | done => rfl
  | remember change next ih => exact ih _
  | raise fault => rfl
  | register observer next ih => exact ih _
  | remove observer next ih => exact ih _
  | parse text next ih => exact ih _ e

/-- By induction on the program. A refused parse gives back the engine that asked for it, and the
handler goes on as it does without the parse. -/
theorem react_unasking (hnested : Refuses nested) (nested' : Nested σ) (r : Reaction σ)
    (e : Engine σ) (he : e.parsing = true) :
    react nested' e r.unasking = react nested e r := by
  induction r generalizing e with
  | done => rfl
  | remember change next ih => exact ih { e with memory := change e.memory } he
  | raise fault => rfl
  | register observer next ih => exact ih { e with registry := e.registry ++ [observer] } he
  | remove observer next ih => exact ih { e with registry := e.registry.erase observer } he
  | parse text next ih =>
    rw [react, hnested e text he]
    exact ih _ e he

theorem notify_unasking (behaviour : Behaviour σ) (hnested : Refuses nested) (nested' : Nested σ)
    (event : Event) (observers : List ObserverId) (e : Engine σ) (he : e.parsing = true) :
    notify behaviour.unasking nested' event e observers =
      notify behaviour nested event e observers := by
  induction observers generalizing e with
  | nil => rfl
  | cons observer rest ih =>
    cases hhandler : behaviour observer event.kind with
    | none => simpa [notify, Behaviour.unasking, hhandler] using ih e he
    | some handler =>
      have hreact := react_unasking hnested nested' (handler event e.store e.memory) e he
      have hkeeps := keeps_react hnested (handler event e.store e.memory) e he
      simp only [notify, Behaviour.unasking, hhandler, Option.map_some, hreact]
      split
      · rename_i e' hdone
        rw [hdone] at hkeeps
        exact ih e' (hkeeps.parsing.trans he)
      · rfl

/-- A commit comes to the same and announces the same, and nobody asks for anything. -/
theorem commit_unasking (behaviour : Behaviour σ) (hnested : Refuses nested) (nested' : Nested σ)
    (changes : List Change) (e : Engine σ) (he : e.parsing = true) :
    commit behaviour.unasking nested' e changes = commit behaviour nested e changes ∧
      announced behaviour.unasking nested' e changes = announced behaviour nested e changes := by
  induction changes generalizing e with
  | nil => exact ⟨rfl, rfl⟩
  | cons change rest ih =>
    have hkeeps := keeps_notify behaviour hnested change.event e.registry (e.make change) he
    have hsame := notify_unasking behaviour hnested nested' change.event e.registry
      (e.make change) he
    rcases hnotify : notify behaviour nested change.event (e.make change) e.registry with
      ⟨e', fault⟩
    rw [hnotify] at hkeeps hsame
    cases fault with
    | some fault =>
      rw [commit_of_raised hnotify, commit_of_raised hsame]
      simp only [announced, hnotify, hsame, and_self]
    | none =>
      rw [commit_of_notified hnotify, commit_of_notified hsame, announced_of_notified hnotify,
        announced_of_notified hsame]
      obtain ⟨hcommit, hannounced⟩ := ih e' (hkeeps.parsing.trans he)
      exact ⟨hcommit, congrArg (_ :: ·) hannounced⟩

theorem notifyAsks_unasking (nested : Nested σ) (event : Event) (observers : List ObserverId)
    (e : Engine σ) : notifyAsks behaviour.unasking nested event e observers = [] := by
  induction observers generalizing e with
  | nil => rfl
  | cons observer rest ih =>
    cases hhandler : behaviour observer event.kind with
    | none => simpa [notifyAsks, Behaviour.unasking, hhandler] using ih e
    | some handler =>
      simp only [notifyAsks, Behaviour.unasking, hhandler, Option.map_some, reactAsks_unasking,
        List.nil_append]
      split
      · exact ih _
      · rfl

theorem commitAsks_unasking (nested : Nested σ) (changes : List Change) (e : Engine σ) :
    commitAsks behaviour.unasking nested e changes = [] := by
  induction changes generalizing e with
  | nil => rfl
  | cons change rest ih =>
    rw [commitAsks, notifyAsks_unasking, List.nil_append]
    split
    · exact ih _
    · rfl

theorem asked_unasking (g : Grammar) (behaviour : Behaviour σ) (e : Engine σ) (text : String) :
    e.asked g behaviour.unasking text = [] := by
  unfold asked
  split
  · rfl
  · split
    · rfl
    · exact commitAsks_unasking _ _ _

theorem dispatched_unasking (g : Grammar) (behaviour : Behaviour σ) (e : Engine σ)
    (text : String) : e.dispatched g behaviour.unasking text = e.dispatched g behaviour text := by
  unfold dispatched
  split
  · rfl
  · split
    · rfl
    · exact (commit_unasking behaviour refuses_inner _ _ e.begin rfl).2

/-- A parse takes as little notice of who answers those that ask as of whether they ask. -/
theorem parseWith_unasking (hnested : Refuses nested) (nested' : Nested σ) (e : Engine σ)
    (text : String) :
    parseWith g behaviour.unasking nested' e text = parseWith g behaviour nested e text := by
  unfold parseWith
  split
  · rfl
  · split
    · rfl
    · rename_i dump hdump
      have hcommit := (commit_unasking behaviour hnested nested'
        (e.store.changes dump.snapshots) e.begin rfl).1
      unfold begin at hcommit
      rw [hcommit]

theorem parse_unasking (g : Grammar) (behaviour : Behaviour σ) (e : Engine σ) (text : String) :
    e.parse g behaviour.unasking text = e.parse g behaviour text :=
  parseWith_unasking refuses_inner _ e text

theorem performAll_unasking (g : Grammar) (e : Engine σ) (calls : List (Call σ)) :
    performAll g e (calls.map Call.unasking) = performAll g e calls := by
  have hcall : ∀ (e : Engine σ) (call : Call σ), e.perform g call.unasking = e.perform g call := by
    intro e call
    cases call with
    | parse behaviour text => exact congrArg Prod.fst (parse_unasking g behaviour e text)
    | addObserver observer => rfl
    | removeObserver observer => rfl
  rw [performAll, List.foldl_map]
  simp only [hcall]
  rfl

/-! ## The guard after a parse -/

/-- What can be wrong with a text: something in a record, or a line that there is no room for. -/
theorem textFault_cases {fault : Fault} (h : textFault g text = some fault) :
    fault.IsOfText ∨ fault.IsOfRoom := by
  rw [textFault, dumpOf_eq] at h
  cases hscripts : scriptsOf g text with
  | error e =>
    rw [hscripts] at h
    cases h
    exact .inl (ofText_scriptsOf g text _ hscripts)
  | ok scripts =>
    rw [hscripts] at h
    exact .inr (Dump.fault_ofFiles h)

/-- A call from outside only fails for a running parse if an observer has let that fault through. -/
theorem raised_of_reentrant (he : e.parsing = false)
    (h : (e.parse g behaviour text).2 = .error .reentrantParse) :
    e.raised g behaviour text = some .reentrantParse := by
  rw [result_parse he] at h
  cases hraised : e.raised g behaviour text with
  | some fault =>
    rw [hraised] at h
    exact congrArg some (Except.error.inj h)
  | none =>
    rw [hraised] at h
    cases hfault : textFault g text with
    | none =>
      rw [hfault] at h
      cases h
    | some fault =>
      rw [hfault] at h
      cases h
      exact (textFault_cases hfault).elim False.elim False.elim

/-- Any call of any run, with observers that ask for parses as they like. Whoever answers them as a
parse would does not change the call: what they get is a parse like any other. It is refused, it
changes nothing and announces nothing. The run, the call and what it announces are those without
the asking. And no parse is running when a call has ended, so what is wrong with the next is never
the guard, but at most a refusal that an observer lets through. -/
theorem parse_refuses_nested (registry : Registry) (memory : σ) (calls : List (Call σ))
    (behaviour : Behaviour σ) (text : String) :
    let e := performAll g { registry, memory } calls
    ((∀ nested, (∀ ask ∈ e.asked g behaviour text,
        nested ask.1 ask.2 = ask.1.parse g behaviour ask.2) →
          parseWith g behaviour nested e text = e.parse g behaviour text) ∧
      ∀ ask ∈ e.asked g behaviour text,
        ask.1.parse g behaviour ask.2 = (ask.1, .error .reentrantParse) ∧
          ask.1.dispatched g behaviour ask.2 = []) ∧
    (performAll g { registry, memory } (calls.map Call.unasking) = e ∧
      e.parse g behaviour.unasking text = e.parse g behaviour text ∧
      e.dispatched g behaviour.unasking text = e.dispatched g behaviour text ∧
      e.asked g behaviour.unasking text = []) ∧
    e.parsing = false ∧ (e.parse g behaviour text).1.parsing = false ∧
      ((e.parse g behaviour text).2 = .error .reentrantParse →
        e.raised g behaviour text = some .reentrantParse) := by
  intro e
  have he : e.parsing = false := parsing_performAll rfl calls
  refine ⟨⟨?_, ?_⟩, ⟨?_, ?_, ?_, ?_⟩, he, parsing_parse he, raised_of_reentrant he⟩
  · intro nested hnested
    rw [parse_eq_parseWith]
    exact parseWith_congr nested hnested
  · intro ask hask
    have hparsing := parsing_of_mem_asked hask
    exact ⟨refuses_parseTo g behaviour 2 ask.1 ask.2 hparsing, if_pos hparsing⟩
  · exact performAll_unasking g _ calls
  · exact parse_unasking g behaviour e text
  · exact dispatched_unasking g behaviour e text
  · exact asked_unasking g behaviour e text

/-- Every observer asks for a parse at each event and counts the refusals. Either it swallows them,
or it lets them through. -/
def meddling (text : String) (swallows : Bool) : Behaviour Nat := fun _ _ =>
  some fun _ _ _ => .parse text fun
    | .error .reentrantParse =>
      .remember (· + 1) (if swallows then .done else .raise .reentrantParse)
    | _ => .done

/-- A file of one line, with what its count is. -/
def lineDump (count : String) : String :=
  "--- SCRIPT a:1 ---\n0:" ++ count ++ "/0/0 x 1 stop\n--- END SCRIPT"

/-- A refusal that is let through ends the parse that stores the file. -/
def meddled : Engine Nat :=
  performAll {} { registry := [0], memory := 0 }
    [.parse (meddling (lineDump "5") false) (lineDump "0")]

theorem parse_refuses_meddling :
    (meddled.memory = 1 ∧
      (meddled.asked {} (meddling (lineDump "5") true) (lineDump "7")).length = 2 ∧
      (meddled.parse {} (meddling (lineDump "5") true) (lineDump "7")).2.isOk) ∧
    (∀ ask ∈ meddled.asked {} (meddling (lineDump "5") true) (lineDump "7"),
      ask.1.parse {} (meddling (lineDump "5") true) ask.2 = (ask.1, .error .reentrantParse) ∧
        ask.1.dispatched {} (meddling (lineDump "5") true) ask.2 = []) := by
  obtain ⟨⟨-, hasked⟩, -, -⟩ := parse_refuses_nested (g := {}) [0] 0
    [.parse (meddling (lineDump "5") false) (lineDump "0")] (meddling (lineDump "5") true)
    (lineDump "7")
  refine ⟨?_, hasked⟩
  decide +kernel

end Engine

end BytecodeCoverage
