-- SUMMARY: What a stopped parse has left out, the same text brings when it is parsed again.
import BytecodeCoverage.Proofs.Engine.History

/-!
# Recovery

An observer that raises leaves the store somewhere on the way to what the text makes of it. From
any point of that way, a parse of the same text leads to its end, just as if no observer had ever
raised. So a text may be tried any number of times. Once a parse of it has got to the end, another
has nothing to change and nothing to tell.
-/

namespace BytecodeCoverage

namespace Engine

variable {σ : Type} {g : Grammar} {behaviour behaviour' : Behaviour σ} {text : String}
  {e : Engine σ}

/-- The call parses the text, with whatever observers, or it registers or removes an observer. -/
def Call.IsAttempt (text : String) : Call σ → Prop
  | .parse _ other => other = text
  | .addObserver _ => True
  | .removeObserver _ => True

/-- Parsing a text, as far as its observers let it, does not change what absorbing it comes to. -/
theorem find?_absorb_perform (he : e.parsing = false) {call : Call σ} (hcall : call.IsAttempt text)
    (file : String) :
    ((e.perform g call).store.absorb (shownBy g text)).find? file =
      (e.store.absorb (shownBy g text)).find? file := by
  cases call with
  | parse behaviour other =>
    obtain rfl : other = text := hcall
    obtain ⟨made, unmade, hmakes⟩ := exists_makes g behaviour other he
    have hmade : made <+: e.store.changes (shownBy g other) := ⟨unmade, hmakes.eq_append.symm⟩
    rw [perform, hmakes.store]
    exact Store.find?_absorb_foldl (wellFormed_shownBy g other) hmade file
  | addObserver observer => rfl
  | removeObserver observer => rfl

/-- By induction on the attempts: each of them starts where the one before it has stopped. -/
theorem find?_absorb_performAll (he : e.parsing = false) {attempts : List (Call σ)}
    (hattempts : ∀ call ∈ attempts, call.IsAttempt text) (file : String) :
    ((performAll g e attempts).store.absorb (shownBy g text)).find? file =
      (e.store.absorb (shownBy g text)).find? file := by
  induction attempts generalizing e with
  | nil => rfl
  | cons call rest ih =>
    have hfirst := find?_absorb_perform (g := g) he (hattempts call (.head _)) file
    have hrest := fun call' hcall' => hattempts call' (.tail _ hcall')
    exact (ih (parsing_perform he call) hrest).trans hfirst

theorem result_parse_of_quiet (hquiet : behaviour.Quiet) (he : e.parsing = false) :
    (e.parse g behaviour text).2 =
      match textFault g text with
      | none => .ok (e.parse g behaviour text).1.store.snapshots
      | some fault => .error fault := by
  rw [result_parse he, raised_of_quiet hquiet]
  rfl

/-- After any attempts at a text, each of them stopped by an observer anywhere or not at all, a
parse of the text with observers that do not raise stores and gives what it would have stored and
given without the attempts. -/
theorem parse_after_attempts (he : e.parsing = false) {attempts : List (Call σ)}
    (hattempts : ∀ call ∈ attempts, call.IsAttempt text) (hquiet : behaviour.Quiet)
    (hquiet' : behaviour'.Quiet) :
    let later := (performAll g e attempts).parse g behaviour text
    let undisturbed := e.parse g behaviour' text
    (∀ file, later.1.store.find? file = undisturbed.1.store.find? file) ∧
      later.1.store.snapshots = undisturbed.1.store.snapshots ∧ later.2 = undisturbed.2 := by
  intro later undisturbed
  have he' := parsing_performAll (g := g) he attempts
  have hfind : ∀ file, later.1.store.find? file = undisturbed.1.store.find? file := by
    intro file
    rw [(parse_of_quiet g text hquiet he').1, (parse_of_quiet g text hquiet' he).1]
    exact find?_absorb_performAll he hattempts file
  have hsnapshots := Store.snapshots_congr hfind
  refine ⟨hfind, hsnapshots, ?_⟩
  rw [result_parse_of_quiet hquiet he', result_parse_of_quiet hquiet' he, hsnapshots]

/-- Every observer notes what it is told, and raises at one event: that before which so many have
been noted. -/
def failingAfter (n : Nat) : Behaviour (List Announcement) := fun _ _ =>
  some fun event store memory =>
    .remember (· ++ [⟨event.kind, event.notice store⟩])
      (if memory.length = n then .raise (.observer "failing") else .done)

/-- A dump that revises a known file and shows a new one. -/
def widened : String :=
  extended ++ "\n--- SCRIPT b.js:1 ---\n0:1/0/0 x 1 stop\n--- END SCRIPT ---"

/-- Parsed twice in vain, stopped at another event each time, and then once more. -/
def retried : List (Call (List Announcement)) :=
  [.parse (failingAfter 1) widened, .parse (failingAfter 3) widened, .removeObserver 0]

theorem parse_after_retries :
    acquainted.raised {} (failingAfter 1) widened = some (.observer "failing") ∧
      (performAll {} acquainted retried).memory.length = 4 ∧
      ((performAll {} acquainted retried).parse {} (hearing 1) widened).1.store.snapshots =
        (acquainted.parse {} (hearing 0) widened).1.store.snapshots := by
  have hattempts : ∀ call ∈ retried, call.IsAttempt widened := by
    simp [retried, Call.IsAttempt]
  obtain ⟨-, hsnapshots, -⟩ := parse_after_attempts (g := {}) (e := acquainted) rfl hattempts
    (quiet_hearing 1) (quiet_hearing 0)
  refine ⟨?_, ?_, hsnapshots⟩
  · decide +kernel
  · decide +kernel

/-! ## Nothing left to do -/

/-- A dump has nothing to change about a store that has absorbed it. All changes are announced, and
there is no difference to announce. -/
theorem changes_absorb {dump : List FileSnapshot} (hdump : WellFormed dump) (s : Store) :
    (s.absorb dump).changes dump = [] := by
  have hagain : ∀ file,
      ((s.absorb dump).absorb dump).find? file = (s.absorb dump).find? file :=
    Store.find?_absorb_foldl hdump List.prefix_rfl
  have hsilent : (s.absorb dump).announcements ((s.absorb dump).changes dump) = [] := by
    rw [Store.announcements_changes hdump.nodup hdump.tight]
    exact (Store.difference_absorb_eq_nil_iff hdump.nodup hdump.tight _).2 hagain
  have hlength := Store.length_announcements (s.absorb dump) ((s.absorb dump).changes dump)
  rw [hsilent] at hlength
  exact List.eq_nil_of_length_eq_zero hlength.symm

/-- Whatever state an engine has come to, a text that it has just parsed to the end brings nothing
when it is parsed once more: no observer hears of anything, so none can do anything, the engine
stays as it is, and the result is the same. -/
theorem parse_again {e' : Engine σ} {result : List FileSnapshot}
    (h : e.parse g behaviour text = (e', .ok result)) :
    e'.dispatched g behaviour' text = [] ∧ e'.parse g behaviour' text = (e', .ok result) := by
  obtain ⟨he, dump, hdump, hfault, -, hstore, hresult⟩ := parse_ok h
  have he' : e'.parsing = false := by
    have hfree : (e.parse g behaviour text).1.parsing = false := parsing_parse he
    rw [h] at hfree
    exact hfree
  have hchanges : e'.store.changes dump.snapshots = [] := by
    rw [hstore]
    exact changes_absorb (wellFormed_of_dumpOf hdump) e.store
  refine ⟨?_, ?_⟩
  · rw [dispatched_of_dump he' hdump, hchanges]
    rfl
  · -- The commit is of no changes, so the engine is only taken and given free again.
    rw [parse_of_dump he' hdump, hchanges, hresult]
    simp only [commit, hfault]
    cases e'
    cases he'
    rfl

/-- A preprocessor has put a line before those of the source. -/
def lowering : Grammar := { relocate := fun file line => (file, line - 1) }

/-- The first line of the text is moved to before the first of the source, and the first parse of
the text was stopped. -/
theorem parse_again_lowered :
    ∃ e' result,
      (performAll lowering acquainted [.parse (failingAfter 0) extended]).parse lowering
          (hearing 0) extended = (e', .ok result) ∧
        e'.dispatched lowering (failingAfter 0) extended = [] ∧
        e'.parse lowering (failingAfter 0) extended = (e', .ok result) := by
  have hok : ((performAll lowering acquainted [.parse (failingAfter 0) extended]).parse lowering
      (hearing 0) extended).2.isOk := by decide +kernel
  rcases h : (performAll lowering acquainted [.parse (failingAfter 0) extended]).parse lowering
    (hearing 0) extended with ⟨e', result⟩
  rw [h] at hok
  cases result with
  | error fault => cases hok
  | ok result => exact ⟨e', result, rfl, parse_again h⟩

end Engine

end BytecodeCoverage
