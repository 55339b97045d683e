-- SUMMARY: What a parse announces to observers is the difference that it makes to the store.
import BytecodeCoverage.Proofs.Engine.Commit
import BytecodeCoverage.Proofs.Store.Difference
import BytecodeCoverage.Proofs.Store.Dump

/-!
# Announcements

Each change is announced when it has been made and before the next is. Observers may do much in
between, but nothing to the store, so what is announced does not depend on them unless they raise.
-/

namespace BytecodeCoverage

namespace Engine

variable {σ : Type} {g : Grammar} {behaviour : Behaviour σ} {nested : Nested σ} {text : String}

/-- What a commit announces: every change, up to the first at which an observer raises. -/
def announced (behaviour : Behaviour σ) (nested : Nested σ) :
    Engine σ → List Change → List Announcement
  | _, [] => []
  | e, change :: rest =>
    (e.make change).store.announce change ::
      match notify behaviour nested change.event (e.make change) e.registry with
      | (e', none) => announced behaviour nested e' rest
      | (_, some _) => []

/-- All that a parse announces. -/
def dispatched (g : Grammar) (behaviour : Behaviour σ) (e : Engine σ) (text : String) :
    List Announcement :=
  if e.parsing then []
  else
    match dumpOf g text with
    | .error _ => []
    | .ok dump =>
      announced behaviour (inner g behaviour) e.begin (e.store.changes dump.snapshots)

theorem announced_of_notified {e e' : Engine σ} {change : Change}
    (h : notify behaviour nested change.event (e.make change) e.registry = (e', none))
    (rest : List Change) :
    announced behaviour nested e (change :: rest) =
      (e.make change).store.announce change :: announced behaviour nested e' rest := by
  simp only [announced, h]

theorem dispatched_of_error {e : Engine σ} (he : e.parsing = false) {fault : Fault}
    (h : dumpOf g text = .error fault) (behaviour : Behaviour σ) :
    e.dispatched g behaviour text = [] := by
  simp [dispatched, he, h]

theorem dispatched_of_dump {e : Engine σ} (he : e.parsing = false) {dump : Dump}
    (h : dumpOf g text = .ok dump) (behaviour : Behaviour σ) :
    e.dispatched g behaviour text =
      announced behaviour (inner g behaviour) e.begin (e.store.changes dump.snapshots) := by
  simp [dispatched, he, h]

/-! ## An observer that hears everything -/

/-- One observer notes what it is told, with the data at that time, and no other does anything. -/
def hearing (ear : ObserverId) : Behaviour (List Announcement) := fun observer _ =>
  if observer = ear then
    some fun event store _ => .remember (· ++ [⟨event.kind, event.notice store⟩]) .done
  else none

theorem quiet_hearing (ear : ObserverId) : (hearing ear).Quiet := by
  intro observer kind handler hhandler event store memory
  unfold hearing at hhandler
  split at hhandler
  · cases hhandler
    trivial
  · cases hhandler

/-- If nobody raises, all changes are announced, and each with the store as the changes made it. -/
theorem announced_of_commit (hnested : Refuses nested) (changes : List Change) (e : Engine σ)
    (he : e.parsing = true) (hnone : (commit behaviour nested e changes).2 = none) :
    announced behaviour nested e changes = e.store.announcements changes := by
  induction changes generalizing e with
  | nil => rfl
  | cons change rest ih =>
    have hkeeps := keeps_notify behaviour hnested change.event e.registry (e.make change) he
    rcases hnotify : notify behaviour nested change.event (e.make change) e.registry with
      ⟨e', fault⟩
    rw [hnotify] at hkeeps
    cases fault with
    | some fault =>
      rw [commit_of_raised hnotify] at hnone
      cases hnone
    | none =>
      rw [commit_of_notified hnotify] at hnone
      rw [announced_of_notified hnotify, ih e' (hkeeps.parsing.trans he) hnone, hkeeps.store]
      rfl

theorem dispatched_of_commit {e : Engine σ} (he : e.parsing = false) {dump : Dump}
    (h : dumpOf g text = .ok dump)
    (hnone : (commit behaviour (inner g behaviour) e.begin
      (e.store.changes dump.snapshots)).2 = none) :
    e.dispatched g behaviour text = e.store.announcements (e.store.changes dump.snapshots) := by
  rw [dispatched_of_dump he h]
  exact announced_of_commit refuses_inner _ e.begin rfl hnone

/-- An engine that knows one file with one line. -/
def acquainted : Engine (List Announcement) :=
  { store := ({} : Store).apply (.addFile
      { filename := "a.js"
        totals := { full := 1 }
        lines := #[some { coverage := .full, counts := [5] }] })
    registry := [0]
    memory := [] }

/-- A dump of the file, with a higher count for its line and with another line. -/
def extended : String :=
  "--- SCRIPT a.js:1 ---\n0:7/0/0 x 1 add\n1:7/0/0 x 2 stop\n--- END SCRIPT ---"

example :
    acquainted.dispatched {} (hearing 0) extended =
      [⟨.lineUpdate, .line "a.js" 0 (some { coverage := .full, counts := [7] })⟩,
        ⟨.lineUpdate, .line "a.js" 2 (some
          { coverage := .full, counts := [7], endsFunction := true })⟩,
        ⟨.fileUpdate, .file "a.js"
          ((acquainted.parse {} (hearing 0) extended).1.store.find? "a.js")⟩] := by
  decide +kernel

end Engine

end BytecodeCoverage
