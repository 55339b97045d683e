-- SUMMARY: The shell stores what an engine does that is fed the texts of its loads, and tells it.
import BytecodeCoverage.Proofs.Engine.Failures
import BytecodeCoverage.Proofs.Session.Isolation
import BytecodeCoverage.Proofs.Shell.Loading
import BytecodeCoverage.Proofs.Shell.Requests

/-!
# Refinement

A shell answers any lines, most of which do nothing to the store. Next to it runs an engine with no
observers at all, which parses the texts of those loads that succeed. After every line the two have
the same store, and what a load prints is what the engine would announce.

The lines are answered by a reader of files that may be another one each time.
-/

namespace BytecodeCoverage

open Engine

/-! ## Texts that are loaded -/

/-- No instruction of the text is on a line further down than there is room for. -/
def Grammar.HasRoom (g : Grammar) (text : String) : Prop :=
  ∀ scripts, scriptsOf g text = .ok scripts →
    ∀ s ∈ scripts, ∀ ins ∈ s.instructions.toList, ins.sourceLine ≤ g.room.lines

section Texts

variable {g : Grammar} {text : String}

theorem Grammar.HasRoom.of_scripts (h : ∀ scripts ∈ (scriptsOf g text).toOption, ∀ s ∈ scripts,
    ∀ ins ∈ s.instructions.toList, ins.sourceLine ≤ g.room.lines) : g.HasRoom text :=
  fun scripts hscripts => h scripts (by rw [hscripts]; rfl)

/-- A text of short numbers and near lines is read as a whole, or it has a lost jump. -/
theorem textFault_of_room (hconverts : g.ConvertsText text) (hroom : g.HasRoom text) :
    (∃ dump, dumpOf g text = .ok dump ∧ dump.fault = none) ∨
      ∃ name source target,
        dumpOf g text = .error (.unresolvedTarget name source target) := by
  cases hscripts : scriptsOf g text with
  | error fault =>
    obtain ⟨-, -, s, -, ins, -, target, rfl, -⟩ := hconverts.isUnresolved hscripts
    exact .inr ⟨_, _, _, dumpOf_of_error hscripts⟩
  | ok scripts =>
    obtain ⟨dump, hdump⟩ : ∃ dump, dumpOf g text = .ok dump := ⟨_, by rw [dumpOf_eq, hscripts]; rfl⟩
    refine .inl ⟨dump, hdump, ?_⟩
    by_contra hfault
    obtain ⟨scripts, hscripts, s, hs, ins, hins, hfar⟩ := exists_far_down hdump hfault
    have hnear := hroom scripts hscripts s hs ins hins
    omega

/-- A file is named in one line if the relocation keeps names to one line. -/
theorem newline_not_mem_filename (hrelocate : g.relocate.KeepsLines) {scripts : List Script}
    (h : scriptsOf g text = .ok scripts) : ∀ s ∈ scripts, '\n' ∉ s.filename.toList := by
  rw [scriptsOf_eq_attemptAll h, Session.scripts_eq]
  intro s hs
  obtain ⟨entry, hentry, rfl⟩ := List.mem_map.1 hs
  have hcollected := Session.collected_attemptAll hrelocate (areLines_recordsOf g text)
  obtain ⟨dump, hdump, hsame⟩ := hcollected.mem_signatures.1 ⟨entry, hentry, rfl⟩
  have hrecorded := hcollected.recorded dump hdump
  rw [hcollected.filename_eq hrecorded hentry hsame.symm]
  exact hrecorded.1.filename

end Texts

namespace Shell

/-! ## Lines of events -/

theorem newline_not_mem_text {n : Notice} (h : '\n' ∉ n.subject.toList) : '\n' ∉ n.text.toList := by
  match n with
  | .plain name => exact h
  | .file name none => exact h
  | .file name (some s) =>
    have hname : '\n' ∉ name.toList := h
    simp [Notice.text, hname, Text.newline_not_mem_repr]
  | .line name number none =>
    have hname : '\n' ∉ name.toList := h
    simp [Notice.text, hname, Text.newline_not_mem_repr]
  | .line name number (some data) =>
    have hname : '\n' ∉ name.toList := h
    have hlabel : '\n' ∉ data.coverage.label.toList := by cases data.coverage <;> decide
    have hcounts : '\n' ∉ (Text.joinWith ", " (data.counts.map toString)).toList := by
      refine Text.not_mem_joinWith (by decide) fun text htext => ?_
      obtain ⟨m, -, rfl⟩ := List.mem_map.1 htext
      exact Text.newline_not_mem_repr m
    simp [Notice.text, hname, Text.newline_not_mem_repr, hlabel, hcounts]

theorem newline_not_mem_line {a : Announcement} (h : '\n' ∉ a.notice.subject.toList) :
    '\n' ∉ a.line.toList := by
  have hkind : '\n' ∉ a.kind.handlerName.toList := by cases a.kind <;> decide
  simp [Announcement.line, hkind, newline_not_mem_text h]

/-! ## Steps -/

/-- A typed line, and the files that there are when it is answered. -/
structure Step where
  files : Files
  line : String

namespace Step

/-- The text of the file that the line asks to load, if there is one. -/
def text? (step : Step) : Option String :=
  match Request.ofLine step.line with
  | .load path => (step.files.text path).toOption
  | _ => none

/-- The text of a load that succeeds. -/
def loaded? (g : Grammar) (step : Step) : Option String :=
  step.text?.filter fun text => (textFault g text).isNone

/-- What is asked of a line and its files: the file that it loads, if any, has a path without null
characters, no number that is too long to be converted and no line too far down to have room. -/
structure Usual (g : Grammar) (step : Step) : Prop where
  /-- Only a path with a null character is refused for that. -/
  honest : ∀ path, step.files path = .error .nullInPath → '\x00' ∈ path.text.toList
  path : ∀ path, Request.ofLine step.line = .load path → '\x00' ∉ path.text.toList
  converts : ∀ text ∈ step.text?, g.ConvertsText text
  room : ∀ text ∈ step.text?, g.HasRoom text

end Step

/-! ## What the shell makes of a step -/

variable {g : Grammar} {w : Workbench} {e : Engine Unit} {step : Step} {text : String}

namespace Step

theorem text?_of_load {path : Path} (h : Request.ofLine step.line = .load path) :
    step.text? = (step.files.text path).toOption := by
  rw [text?, h]

theorem text?_eq_some (h : step.text? = some text) :
    ∃ path, Request.ofLine step.line = .load path ∧ step.files.text path = .ok text := by
  unfold text? at h
  split at h
  · rename_i path hrequest
    refine ⟨path, hrequest, ?_⟩
    cases hread : step.files.text path with
    | error fault =>
      rw [hread] at h
      cases h
    | ok text' =>
      rw [hread] at h
      exact congrArg Except.ok (Option.some.inj h)
  · cases h

/-- The path that is loaded is not refused for a null character. -/
theorem Usual.fault_ne (hstep : step.Usual g) {path : Path} {fault : FileFault}
    (hload : Request.ofLine step.line = .load path)
    (hread : step.files.text path = .error fault) : fault ≠ .nullInPath := by
  rintro rfl
  refine hstep.path path hload (hstep.honest path ?_)
  rw [Files.text] at hread
  cases hbytes : step.files path with
  | ok bytes =>
    rw [hbytes] at hread
    cases hread
  | error fault =>
    rw [hbytes] at hread
    cases hread
    rfl

theorem Usual.of_text {path : Path}
    (honest : ∀ path, step.files path = .error .nullInPath → '\x00' ∈ path.text.toList)
    (hload : Request.ofLine step.line = .load path) (hpath : '\x00' ∉ path.text.toList)
    (hread : step.files.text path = .ok text) (hconverts : g.ConvertsText text)
    (hroom : g.HasRoom text) : step.Usual g := by
  have htext : step.text? = some text := by
    rw [text?_of_load hload, hread]
    rfl
  refine ⟨honest, ?_, ?_, ?_⟩
  · intro path' hload'
    rw [hload] at hload'
    cases hload'
    exact hpath
  · rw [htext]
    rintro _ ⟨⟩
    exact hconverts
  · rw [htext]
    rintro _ ⟨⟩
    exact hroom

theorem Usual.of_quit
    (honest : ∀ path, step.files path = .error .nullInPath → '\x00' ∈ path.text.toList)
    (hquit : Request.ofLine step.line = .quit) : step.Usual g := by
  have htext : step.text? = none := by rw [text?, hquit]
  refine ⟨honest, ?_, ?_, ?_⟩
  · rw [hquit]
    nofun
  · rw [htext]
    nofun
  · rw [htext]
    nofun

theorem loaded?_of_dump {dump : Dump} (h : step.text? = some text)
    (hdump : dumpOf g text = .ok dump) (hfault : dump.fault = none) :
    step.loaded? g = some text := by
  have hnone : textFault g text = none := by
    rw [textFault, hdump]
    exact hfault
  simp [loaded?, h, hnone]

theorem loaded?_of_error {fault : Fault} (h : step.text? = some text)
    (hdump : dumpOf g text = .error fault) : step.loaded? g = none := by
  have hsome : textFault g text = some fault := by rw [textFault, hdump]
  simp [loaded?, h, hsome]

/-- What a step is answered with, next to an engine that has loaded what the shell has. -/
structure Answered (g : Grammar) (step : Step) (e : Engine Unit) (w : Workbench)
    (answer : Workbench × Turn) : Prop where
  /-- The shell goes on, or ends for a word that asks it to. It never crashes. -/
  sequel : answer.2.sequel = .goesOn ∨ answer.2.sequel = .quits
  quits : answer.2.sequel = .quits ↔
    ∃ name ∈ Request.quitNames, Request.firstWord? step.line = some name
  /-- A line that is cut into words has a first one, unless it is blank. -/
  worded : Request.wordsOf step.line = .ok [] → Text.stripBlanks step.line.toList = []
  /-- Only a load that succeeds changes the store. -/
  kept : step.loaded? g = none → answer.1.store = w.store
  /-- A load that does not succeed tells the lost jump. -/
  rejected : ∀ text fault, step.text? = some text → textFault g text = some fault →
    (∃ name source target, fault = .unresolvedTarget name source target) ∧
      answer.2 = .printing ["Command 'load' failed: " ++ fault.message]
  /-- One that succeeds tells what is announced of its text, line by line, and that is what the
  other engine announces. -/
  told : ∀ text, step.loaded? g = some text →
    answer.2 = .printing (toldLines (w.dispatched g Journal.behaviour text)) ∧
      w.dispatched g Journal.behaviour text = e.dispatched g deaf text
  unchanged : ∀ text, step.loaded? g = some text →
    (answer.2.output = "no changes\n" ↔
      ∀ file, answer.1.store.find? file = w.store.find? file)
  oneLined : g.relocate.KeepsLines → ∀ text, step.loaded? g = some text →
    ∀ line ∈ toldLines (e.dispatched g deaf text), '\n' ∉ line.toList

end Step

/-- An answer is told apart from any other by its first line. -/
theorem output_toldLines_eq_iff {told : List Announcement} :
    (Turn.printing (toldLines told)).output = "no changes\n" ↔ told = [] := by
  cases told with
  | nil => exact ⟨fun _ => rfl, fun _ => by decide⟩
  | cons a rest =>
    refine ⟨fun h => ?_, nofun⟩
    -- The name of every handler begins with another letter.
    obtain ⟨more, hmore⟩ : ∃ more, a.line.toList = 'o' :: more := by
      obtain ⟨kind, notice⟩ := a
      cases kind <;> exact ⟨_, by simp [Announcement.line, EventKind.handlerName]; rfl⟩
    have hlist := congrArg String.toList h
    rw [toldLines, if_neg (List.cons_ne_nil a rest), Turn.toList_output_printing, List.map_cons,
      List.flatMap_cons, hmore] at hlist
    cases hlist

/-- Answers to anything but a load leave the shell as it is, and none of them crashes. -/
theorem answer_of_not_load (hstore : w.store.Legible) (files : Files) {r : Request}
    (hr : ∀ path, r ≠ .load path) :
    (answer g files w r).1 = w ∧
      (answer g files w r).2.sequel = if r = .quit then .quits else .goesOn := by
  cases r with
  | load path => exact absurd rfl (hr path)
  | show_ file =>
    refine ⟨rfl, ?_⟩
    rw [answer]
    cases hfile : w.store.find? file with
    | none => rfl
    | some snapshot =>
      obtain ⟨text, htext⟩ := (hstore file snapshot hfile).exists_lineTable
      simp only [htext]
      rfl
  | summary =>
    obtain ⟨text, htext⟩ := hstore.sized.exists_summaryTable
    refine ⟨rfl, ?_⟩
    rw [answer, htext]
    rfl
  | nothing => exact ⟨rfl, rfl⟩
  | unreadable fault => exact ⟨rfl, rfl⟩
  | quit => exact ⟨rfl, rfl⟩
  | unknown name => exact ⟨rfl, rfl⟩
  | misused usage => exact ⟨rfl, rfl⟩
  | files => exact ⟨rfl, rfl⟩
  | help => exact ⟨rfl, rfl⟩

/-- A step that asks to load no text that there is. -/
theorem execute_of_no_text (hstore : w.store.Legible) (hstep : step.Usual g)
    (htext : step.text? = none) :
    ∃ memory turn, execute g step.files w step.line = ({ w with memory }, turn) ∧
      turn.sequel = if Request.ofLine step.line = .quit then .quits else .goesOn := by
  unfold execute
  by_cases hload : ∃ path, Request.ofLine step.line = .load path
  · obtain ⟨path, hrequest⟩ := hload
    rw [Step.text?_of_load hrequest] at htext
    cases hread : step.files.text path with
    | ok text =>
      rw [hread] at htext
      cases htext
    | error fault =>
      have hnull := hstep.fault_ne hrequest hread
      rw [hrequest, answer, load, hread]
      cases fault with
      | nullInPath => contradiction
      | notFound => exact ⟨_, _, rfl, rfl⟩
      | notADirectory => exact ⟨_, _, rfl, rfl⟩
      | isADirectory => exact ⟨_, _, rfl, rfl⟩
      | nameTooLong => exact ⟨_, _, rfl, rfl⟩
      | other number text => exact ⟨_, _, rfl, rfl⟩
  · have hother := answer_of_not_load (g := g) hstore step.files
      fun path hpath => hload ⟨path, hpath⟩
    exact ⟨w.memory, _, Prod.ext hother.1 rfl, hother.2⟩

/-- The answer to a step that loads nothing. -/
theorem answered_of_no_load {answer : Workbench × Turn} (hload : step.loaded? g = none)
    (hstore : answer.1.store = w.store)
    (hsequel : answer.2.sequel =
      if Request.ofLine step.line = .quit then .quits else .goesOn)
    (hrejected : ∀ text fault, step.text? = some text → textFault g text = some fault →
      (∃ name source target, fault = .unresolvedTarget name source target) ∧
        answer.2 = .printing ["Command 'load' failed: " ++ fault.message]) :
    step.Answered g e w answer := by
  have hnothing : ∀ text, step.loaded? g ≠ some text := by
    intro text htext
    rw [hload] at htext
    cases htext
  refine ⟨?_, ?_, Request.blank_of_wordsOf, fun _ => hstore, hrejected, ?_, ?_, ?_⟩
  · rw [hsequel]
    split
    · exact .inr rfl
    · exact .inl rfl
  · rw [hsequel, ← Request.ofLine_eq_quit_iff]
    split
    · rename_i hquit
      exact ⟨fun _ => hquit, fun _ => rfl⟩
    · rename_i hother
      exact ⟨nofun, fun hquit => absurd hquit hother⟩
  · exact fun text htext => absurd htext (hnothing text)
  · exact fun text htext => absurd htext (hnothing text)
  · exact fun _ text htext => absurd htext (hnothing text)

theorem execute_of_text (w : Workbench) (htext : step.text? = some text) :
    execute g step.files w step.line = loadText g w text ∧
      Request.ofLine step.line ≠ .quit := by
  obtain ⟨path, hrequest, hread⟩ := Step.text?_eq_some htext
  refine ⟨?_, ?_⟩
  · rw [execute, hrequest, answer, load, hread]
  · rw [hrequest]
    nofun

/-- The answer to a load that succeeds, by what the engine makes of the text. -/
theorem answered_of_load {dump : Dump} (h : w.Mirrors Journal.recording e)
    (htext : step.text? = some text) (hdump : dumpOf g text = .ok dump)
    (hfault : dump.fault = none) (memory : Journal) :
    step.Answered g e w
      ({ w with store := w.store.absorb dump.snapshots, memory },
        .printing (toldLines (w.store.announcements (w.store.changes dump.snapshots)))) := by
  have hload := Step.loaded?_of_dump htext hdump hfault
  have hsame : ∀ {text'}, step.loaded? g = some text' → text' = text := by
    intro text' htext'
    rw [hload] at htext'
    exact (Option.some.inj htext').symm
  have hstore := store_parse_deaf h.idle hdump
  have htold := dispatched_deaf h.idle hdump
  obtain ⟨scripts, hscripts, hnames⟩ := exists_scripts_of_dumpOf hdump hfault
  obtain ⟨hnodup, htight, -⟩ := wellFormed_of_dumpOf hdump
  have hdifference := Store.announcements_changes hnodup htight e.store
  have hsubject : ∀ a ∈ e.store.announcements (e.store.changes dump.snapshots),
      a.notice.subject ∈ (groupByFile g.dialect.haltMnemonic scripts).keys := by
    intro a ha
    rw [hdifference] at ha
    exact hnames ▸ subject_of_mem_difference ha
  have hnone : e.store.announcements (e.store.changes dump.snapshots) = [] ↔
      ∀ file, (e.store.absorb dump.snapshots).find? file = e.store.find? file := by
    rw [hdifference]
    exact Store.difference_absorb_eq_nil_iff hnodup htight e.store
  have hquit := (execute_of_text (g := g) w htext).2
  refine ⟨.inl rfl, ?_, Request.blank_of_wordsOf, ?_, ?_, ?_, ?_, ?_⟩
  · rw [← Request.ofLine_eq_quit_iff]
    exact ⟨nofun, fun hq => absurd hq hquit⟩
  · intro hno
    rw [hload] at hno
    cases hno
  · intro text' fault htext' hfault'
    rw [htext] at htext'
    cases htext'
    rw [textFault, hdump] at hfault'
    rw [show dump.fault = some fault from hfault'] at hfault
    cases hfault
  · intro text' htext'
    rw [hsame htext', htold, h.heard.dispatched_of_dump hdump, h.store]
    exact ⟨rfl, rfl⟩
  · intro text' htext'
    rw [output_toldLines_eq_iff, h.store]
    exact hnone
  · intro hrelocate text' htext' line hline
    rw [hsame htext', htold, toldLines] at hline
    split at hline
    · rw [List.mem_singleton.1 hline]
      decide
    · obtain ⟨a, ha, rfl⟩ := List.mem_map.1 hline
      obtain ⟨s, hs, hname⟩ := mem_groupByFile_iff.1 (Std.TreeMap.mem_keys.1 (hsubject a ha))
      have hsubject' : '\n' ∉ a.notice.subject.toList :=
        hname ▸ newline_not_mem_filename hrelocate hscripts s hs
      exact newline_not_mem_line hsubject'

/-- What one step keeps, and how it is answered. -/
theorem execute_mirrors (h : w.Mirrors Journal.recording e) (hstep : step.Usual g) :
    (execute g step.files w step.line).1.Mirrors Journal.recording
        (e.parseAll g deaf (step.loaded? g).toList) ∧
      step.Answered g e w (execute g step.files w step.line) := by
  cases htext : step.text? with
  | none =>
    have hload : step.loaded? g = none := by rw [Step.loaded?, htext]; rfl
    obtain ⟨memory, turn, hexecute, hsequel⟩ := execute_of_no_text h.legible hstep htext
    rw [hexecute, hload]
    refine ⟨h.remember memory, answered_of_no_load hload rfl hsequel fun text fault htext' => ?_⟩
    rw [htext] at htext'
    cases htext'
  | some text =>
    obtain ⟨hexecute, hquit⟩ := execute_of_text (g := g) w htext
    have hconverts := hstep.converts text htext
    rw [hexecute]
    rcases textFault_of_room hconverts (hstep.room text htext) with ⟨dump, hdump, hfault⟩ |
      ⟨name, source, target, hdump⟩
    · have hnew := legible_of_dumpOf hconverts hdump
      obtain ⟨memory, hloaded⟩ := loadText_of_dump h.heard h.legible hdump hfault hnew
      rw [hloaded, Step.loaded?_of_dump htext hdump hfault]
      exact ⟨h.absorb hdump hnew memory, answered_of_load h htext hdump hfault memory⟩
    · obtain ⟨memory, hrejected⟩ := loadText_of_error h.heard hdump rfl
      have hload := Step.loaded?_of_error htext hdump
      rw [hrejected, hload]
      refine ⟨h.remember memory, answered_of_no_load hload rfl (if_neg hquit).symm
        fun text' fault htext' hfault => ?_⟩
      rw [htext] at htext'
      cases htext'
      rw [textFault, hdump] at hfault
      cases hfault
      exact ⟨⟨_, _, _, rfl⟩, rfl⟩

/-! ## Runs -/

/-- Answer one line after the other, also after one that ends the shell. -/
def executeAll (g : Grammar) (w : Workbench) (steps : List Step) : Workbench :=
  steps.foldl (fun w step => (execute g step.files w step.line).1) w

/-- By induction on the steps. -/
theorem executeAll_mirrors (h : w.Mirrors Journal.recording e) {steps : List Step}
    (hsteps : ∀ step ∈ steps, step.Usual g) :
    (executeAll g w steps).Mirrors Journal.recording
      (e.parseAll g deaf (steps.filterMap (·.loaded? g))) := by
  induction steps generalizing w e with
  | nil => exact h
  | cons step rest ih =>
    obtain ⟨hstep, hrest⟩ := List.forall_mem_cons.1 hsteps
    have hnext := ih (execute_mirrors h hstep).1 hrest
    cases hload : step.loaded? g with
    | none =>
      rw [hload] at hnext
      rw [List.filterMap_cons_none hload]
      exact hnext
    | some text =>
      rw [hload] at hnext
      rw [List.filterMap_cons_some hload]
      exact hnext

/-- A shell whose recorder is the only observer answers any lines, each with its own files, where
no path has a null character and the texts of the files have no number that is too long to be
converted and no line too far down. In the end its store is that of an engine without observers
that parses the texts of the loads that succeed, and each answer is as it should be next to the
engine that has parsed those before it. -/
theorem executeAll_refines {w : Workbench} (hw : w.Heard Journal.recording)
    (hstore : w.store.Legible) {steps : List Step} (hsteps : ∀ step ∈ steps, step.Usual g) :
    let e : Engine Unit := { store := w.store, memory := () }
    (executeAll g w steps).store = (e.parseAll g deaf (steps.filterMap (·.loaded? g))).store ∧
      ∀ before step after, steps = before ++ step :: after →
        step.Answered g (e.parseAll g deaf (before.filterMap (·.loaded? g)))
          (executeAll g w before) (execute g step.files (executeAll g w before) step.line) := by
  intro e
  have hnew : w.Mirrors Journal.recording e := ⟨hw, hstore, rfl, rfl⟩
  refine ⟨(executeAll_mirrors hnew hsteps).store, ?_⟩
  rintro before step after rfl
  obtain ⟨hbefore, hrest⟩ := List.forall_mem_append.1 hsteps
  exact (execute_mirrors (executeAll_mirrors hnew hbefore) (hrest step (.head _))).2

/-! ## A few dumps -/

/-- A tree of files refuses a path for a null character only if it has one. -/
theorem mem_of_read_eq_nullInPath {tree : FileTree} {path : Path}
    (h : tree.read path = .error .nullInPath) : '\x00' ∈ path.text.toList := by
  have hfollow : ∀ (steps : List String) (place : Place),
      tree.follow place steps ≠ .error .nullInPath := by
    intro steps
    induction steps with
    | nil => nofun
    | cons step rest ih =>
      intro place
      simp only [FileTree.follow]
      repeat' split
      all_goals first | exact ih _ | nofun
  unfold FileTree.read at h
  split at h
  · assumption
  · split at h
    · cases h
    · exact absurd h (hfollow _ _)

/-- An instruction on a line too far down. -/
def farDump : String :=
  "--- SCRIPT a.js:1 ---\n0:1/0/0 x 10000000000000000000 stop\n--- END SCRIPT ---"

def shelf : FileTree :=
  .ofFiles [("cold.txt", coldDump.toUTF8.toList), ("stray.txt", strayJump.toUTF8.toList),
    ("far.txt", farDump.toUTF8.toList)]

/-- The shell is asked to load a dump that has a lost jump, then one that has none, and to quit. -/
def typed : List Step := ["load stray.txt", "load cold.txt", "quit"].map (⟨shelf.read, ·⟩)

theorem executeAll_typed :
    (executeAll {} (start { memory := {} }) typed).store =
      (parseAll {} deaf { memory := () } [coldDump]).store := by
  have hcold : ({} : Grammar).ConvertsText coldDump ∧ ({} : Grammar).HasRoom coldDump :=
    ⟨.of_short (by decide +kernel) (by decide +kernel) (by decide +kernel) (by decide +kernel),
      .of_scripts (by decide +kernel)⟩
  have hstray : ({} : Grammar).ConvertsText strayJump ∧ ({} : Grammar).HasRoom strayJump :=
    ⟨.of_short (by decide +kernel) (by decide +kernel) (by decide +kernel) (by decide +kernel),
      .of_scripts (by decide +kernel)⟩
  have hsteps : ∀ step ∈ typed, step.Usual {} := by
    have hhonest := @mem_of_read_eq_nullInPath shelf
    have hfirst : Request.ofLine "load stray.txt" = .load (.ofText "stray.txt") := by
      decide +kernel
    have hsecond : Request.ofLine "load cold.txt" = .load (.ofText "cold.txt") := by
      decide +kernel
    simp only [typed, List.map_cons, List.map_nil, List.forall_mem_cons]
    refine ⟨?_, ?_, ?_, nofun⟩
    · exact .of_text (fun _ => hhonest) hfirst (by decide +kernel) (by decide +kernel)
        hstray.1 hstray.2
    · exact .of_text (fun _ => hhonest) hsecond (by decide +kernel) (by decide +kernel)
        hcold.1 hcold.2
    · exact .of_quit (fun _ => hhonest) (by decide +kernel)
  have hloaded : typed.filterMap (·.loaded? {}) = [coldDump] := by decide +kernel
  have hrefines := executeAll_refines (w := start { memory := {} }) ⟨rfl, rfl⟩ Store.legible_empty
    hsteps
  rw [hloaded] at hrefines
  exact hrefines.1

/-- A line too far down ends the shell, though all numbers can be converted. -/
theorem execute_farDump :
    ({} : Grammar).ConvertsText farDump ∧ shelf.read.text (.ofText "far.txt") = .ok farDump ∧
      '\x00' ∉ (Path.ofText "far.txt").text.toList ∧
      (execute {} shelf.read (start { memory := {} }) "load far.txt").2.sequel =
        .crashes (.fault .gapTooLong) := by
  refine ⟨.of_short ?_ ?_ ?_ ?_, ?_, ?_, ?_⟩
  · decide +kernel
  · decide +kernel
  · decide +kernel
  · decide +kernel
  · decide +kernel
  · decide +kernel
  · decide +kernel

end Shell

end BytecodeCoverage
