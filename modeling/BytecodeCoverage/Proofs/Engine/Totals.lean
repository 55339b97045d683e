-- SUMMARY: Stored totals are up to date, except where an observer has stopped a parse amid lines.
import BytecodeCoverage.Proofs.Engine.History

/-!
# Totals

The totals of a known file are counted when all of its lines have been revised. An observer that
raises at one of the lines leaves them as they were, and they stay behind the lines until a parse
gets through the file. No other way leads to totals that are out of date: whatever observers do at
other events, and whatever calls come before, the totals of all other files are those of their
lines.
-/

namespace BytecodeCoverage

namespace Engine

variable {σ : Type} {g : Grammar} {behaviour : Behaviour σ} {text : String} {e : Engine σ}

/-! ## Where a parse is stopped -/

/-- The announcement at which an observer ends a parse. -/
def endedAt (g : Grammar) (behaviour : Behaviour σ) (e : Engine σ) (text : String) :
    Option Announcement :=
  if (e.raised g behaviour text).isSome then (e.dispatched g behaviour text).getLast? else none

/-- The file at a line of which an observer ends a parse. -/
def brokenOff (g : Grammar) (behaviour : Behaviour σ) (e : Engine σ) (text : String) :
    Option String :=
  match e.endedAt g behaviour text with
  | some ⟨.lineUpdate, notice⟩ => some notice.subject
  | _ => none

/-- A parse gets through a file of its text if no observer ends it at an earlier file or at a line
of this one. -/
def GetsThrough (g : Grammar) (behaviour : Behaviour σ) (e : Engine σ) (text file : String) :
    Prop :=
  file ∈ (shownBy g text).map (·.filename) ∧
    ∀ a ∈ e.endedAt g behaviour text,
      file < a.notice.subject ∨ file = a.notice.subject ∧ a.kind ≠ .lineUpdate

instance (file : String) : Decidable (GetsThrough g behaviour e text file) :=
  inferInstanceAs (Decidable (_ ∧ ∀ a ∈ e.endedAt g behaviour text, _))

/-- The files that are left in the middle of their lines after a call, if some were so before. -/
def openAfter (g : Grammar) (e : Engine σ) (files : List String) : Call σ → List String
  | .parse behaviour text =>
    files.filter (¬ e.GetsThrough g behaviour text ·) ++ (e.brokenOff g behaviour text).toList
  | .addObserver _ => files
  | .removeObserver _ => files

/-- The files that some calls leave in the middle of their lines: a parse was broken off there, and
none has got through the file since. -/
def leftOpen (g : Grammar) : Engine σ → List String → List (Call σ) → List String
  | _, files, [] => files
  | e, files, call :: rest => leftOpen g (e.perform g call) (e.openAfter g files call) rest

theorem subject_notice (store : Store) (event : Event) :
    (event.notice store).subject = event.file := by
  cases event <;> rfl

theorem getLast?_announcements (s : Store) (made : List Change) (change : Change) :
    ∃ now : Store, (s.announcements (made ++ [change])).getLast? = some (now.announce change) := by
  rw [Store.announcements_append]
  exact ⟨_, List.getLast?_concat⟩

/-- A parse that leaves changes unmade is ended at the last one that it makes. -/
theorem endedAt_of_unmade {made unmade : List Change} (h : Makes g behaviour e text made unmade)
    (hunmade : unmade ≠ []) :
    ∃ init change, made = init ++ [change] ∧
      ∃ now : Store, e.endedAt g behaviour text = some (now.announce change) := by
  have hraised : e.raised g behaviour text ≠ none := fun hnone => hunmade (h.complete hnone)
  obtain ⟨init, change, rfl⟩ : ∃ init change, made = init ++ [change] :=
    ⟨_, _, (List.dropLast_concat_getLast (h.begun hraised)).symm⟩
  obtain ⟨now, hlast⟩ := getLast?_announcements e.store init change
  refine ⟨init, change, rfl, now, ?_⟩
  rw [endedAt, if_pos (Option.isSome_iff_ne_none.2 hraised), h.dispatched, hlast]

/-! ## Totals of one file -/

/-- The totals of all stored snapshots are those of their lines, except for some files. -/
def RecountedBut (s : Store) (files : List String) : Prop :=
  ∀ file stored, s.find? file = some stored → file ∉ files → stored.totals = stored.recount

theorem totals_of_absorb {s : Store} {dump : List FileSnapshot} (hdump : WellFormed dump)
    {file : String} {stored : FileSnapshot} (hfile : file ∈ dump.map (·.filename))
    (h : (s.absorb dump).find? file = some stored) : stored.totals = stored.recount := by
  rw [Store.find?_absorb hdump.nodup] at h
  cases hsnapshot : Store.snapshotOf dump file with
  | none => exact absurd hfile (Store.snapshotOf_eq_none_iff.1 hsnapshot)
  | some new =>
    rw [hsnapshot] at h
    cases h
    exact Store.totals_merged (hdump.totals new (Store.mem_of_snapshotOf hsnapshot).1)

/-- A file is as it was, or its totals have been counted, or the parse was broken off in it. -/
theorem find?_parse_cases (g : Grammar) (behaviour : Behaviour σ) (text : String)
    (he : e.parsing = false) (file : String) :
    (e.parse g behaviour text).1.store.find? file = e.store.find? file ∧
        ¬ e.GetsThrough g behaviour text file ∨
      (∀ stored, (e.parse g behaviour text).1.store.find? file = some stored →
        stored.totals = stored.recount) ∨
      e.brokenOff g behaviour text = some file := by
  obtain ⟨made, unmade, hmakes⟩ := exists_makes g behaviour text he
  have hdump := wellFormed_shownBy g text
  have hnames := ascending_shownBy g text
  by_cases hunmade : Store.changesOf file unmade = []
  · by_cases hfile : file ∈ (shownBy g text).map (·.filename)
    · refine .inr (.inl fun stored hstored => totals_of_absorb (s := e.store) hdump hfile ?_)
      rw [← Store.find?_of_none_unmade hmakes.eq_append hunmade, ← hmakes.store, hstored]
    · refine .inl ⟨?_, ?_⟩
      · rw [hmakes.store, Store.find?_of_none_unmade hmakes.eq_append hunmade,
          Store.find?_absorb hdump.nodup, Store.snapshotOf_eq_none_iff.2 hfile]
      · exact fun hthrough => hfile hthrough.1
  · have hne : unmade ≠ [] := by
      rintro rfl
      exact hunmade rfl
    obtain ⟨init, change, rfl, now, hended⟩ := endedAt_of_unmade hmakes hne
    by_cases hmade : Store.changesOf file (init ++ [change]) = []
    · refine .inl ⟨?_, ?_⟩
      · rw [hmakes.store]
        exact Store.find?_of_none_made hmade
      · rintro ⟨-, hpast⟩
        have hchange := hpast _ hended
        rw [Store.announce, subject_notice] at hchange
        exact hunmade (Store.none_unmade_of_past hnames hmakes.eq_append hchange)
    · obtain ⟨hfile, hkind⟩ := Store.line_of_underway hnames hmakes.eq_append hmade hunmade
      refine .inr (.inr ?_)
      rw [brokenOff, hended, Store.announce, hkind]
      exact congrArg some ((subject_notice now change.event).trans hfile)

/-! ## Totals after any calls -/

/-- What one call keeps. -/
theorem RecountedBut.perform {files : List String} (he : e.parsing = false)
    (h : RecountedBut e.store files) (call : Call σ) :
    RecountedBut (e.perform g call).store (e.openAfter g files call) := by
  cases call with
  | parse behaviour text =>
    intro file stored hstored hopen
    rw [openAfter, List.mem_append, not_or] at hopen
    obtain ⟨hclosed, hbroken⟩ := hopen
    rcases find?_parse_cases g behaviour text he file with ⟨hsame, hthrough⟩ | hcounted | hstop
    · refine h file stored (hsame.symm.trans hstored) fun hfile => hclosed ?_
      exact List.mem_filter.2 ⟨hfile, decide_eq_true hthrough⟩
    · exact hcounted stored hstored
    · rw [hstop] at hbroken
      exact absurd (List.mem_singleton_self file) hbroken
  | addObserver observer => exact h
  | removeObserver observer => exact h

/-- By induction on the calls. -/
theorem RecountedBut.performAll {files : List String} (he : e.parsing = false)
    (h : RecountedBut e.store files) (calls : List (Call σ)) :
    RecountedBut (performAll g e calls).store (leftOpen g e files calls) := by
  induction calls generalizing e files with
  | nil => exact h
  | cons call rest ih => exact ih (parsing_perform he call) (h.perform he call)

/-- After any calls on a new engine, with observers that may raise at any event, the totals of
every stored snapshot are those of its lines, unless the file was left in the middle of them. -/
theorem totals_performAll (registry : Registry) (memory : σ) (calls : List (Call σ)) {file : String}
    {stored : FileSnapshot}
    (hstored : (performAll g { registry, memory } calls).store.find? file = some stored)
    (hfile : file ∉ leftOpen g { registry, memory } [] calls) :
    stored.totals = stored.recount := by
  have hnew : RecountedBut ({ registry, memory } : Engine σ).store [] := by
    intro name snapshot hsnapshot
    have hnone : ({} : Store).find? name = none := Std.TreeMap.getElem?_emptyc
    exact absurd (hsnapshot.symm.trans hnone) nofun
  exact hnew.performAll rfl calls file stored hstored hfile

/-! ## A parse that is broken off -/

/-- Every observer raises at the events of one kind and has no handler for others. -/
def failingAt (kind : EventKind) : Behaviour Unit := fun _ other =>
  if other = kind then some fun _ _ _ => .raise (.observer "failing") else none

/-- No observer has any handler. -/
def deaf : Behaviour Unit := fun _ _ => none

/-- A file of one line that has not run. -/
def coldDump : String := "--- SCRIPT a:1 ---\n0:0/0/0 x 1 stop\n--- END SCRIPT"

/-- The same file once its line has run. -/
def hotDump : String := "--- SCRIPT a:1 ---\n0:5/0/0 x 1 stop\n--- END SCRIPT"

/-- The second parse is broken off at the line of the file. -/
def halted : List (Call Unit) :=
  [.addObserver 0, .parse deaf coldDump, .parse (failingAt .lineUpdate) hotDump]

/-- The line of the file has run, and its totals still say that it has not. -/
theorem totals_performAll_halted :
    ∃ stored, (performAll {} { memory := () } halted).store.find? "a" = some stored ∧
      stored.totals ≠ stored.recount := by
  refine ⟨{
    filename := "a"
    totals := { missed := 1 }
    lines := #[some
      { coverage := .full, counts := [5], startsFunction := true, endsFunction := true }] },
    ?_, ?_⟩
  · decide +kernel
  · decide

/-- The text is parsed once more, and again not to its end, but the file is got through. -/
def resumed : List (Call Unit) := halted ++ [.parse (failingAt .fileUpdate) hotDump]

theorem totals_performAll_resumed :
    leftOpen {} ({ memory := () } : Engine Unit) [] resumed = [] ∧
      ∃ stored, (performAll {} { memory := () } resumed).store.find? "a" = some stored ∧
        stored.totals = stored.recount := by
  have hclosed : leftOpen {} ({ memory := () } : Engine Unit) [] resumed = [] := by
    decide +kernel
  have hknown :
      ((performAll {} ({ memory := () } : Engine Unit) resumed).store.find? "a").isSome := by
    decide +kernel
  obtain ⟨stored, hstored⟩ := Option.isSome_iff_exists.1 hknown
  refine ⟨hclosed, stored, hstored, totals_performAll [] () resumed hstored ?_⟩
  rw [hclosed]
  exact List.not_mem_nil

end Engine

end BytecodeCoverage
