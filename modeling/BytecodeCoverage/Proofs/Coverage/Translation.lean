-- SUMMARY: Where every file and line is moved alike, files have the same lines, moved.
import BytecodeCoverage.Proofs.Coverage.Growth
import BytecodeCoverage.Proofs.Session.Translation
import BytecodeCoverage.Proofs.Store.Slots

/-!
# Translation of coverage

The scripts there make the files there. A line there has the entries of the line here, under the
keys of the moved scripts, and those are alike just where the keys here are alike. So the same
entries are left out, and what a line tells of its counts, its class and its functions is the same.
A snapshot has no slots below line one and no room for lines that are too far down, however much
room there is, so moving may take lines out of it and bring lines into it, or leave it without room.
-/

namespace BytecodeCoverage

variable {t : Translation}

/-! ## Readings -/

theorem readings_translate (previous : Option Instruction) (code : List Instruction) :
    readings (previous.map (·.translate t)) (code.map (·.translate t)) = readings previous code := by
  induction code generalizing previous with
  | nil => rfl
  | cons ins rest ih =>
    have hecho : isEcho (previous.map (·.translate t)) (ins.translate t) = isEcho previous ins := by
      cases previous with
      | none => rfl
      | some p => rfl
    have hrest := ih (some ins)
    simp only [Option.map_some] at hrest
    simp only [List.map_cons, readings, hecho, hrest]
    rfl

theorem distinctCounts_translate (haltMnemonic : String) (code : List Instruction) :
    distinctCounts haltMnemonic (code.map (·.translate t)) = distinctCounts haltMnemonic code := by
  have htold : readings none (code.map (·.translate t)) = readings none code :=
    readings_translate none code
  have hhead : ((code.map (·.translate t)).head?.map (·.text)) = code.head?.map (·.text) := by
    cases code with
    | nil => rfl
    | cons ins rest => rfl
  simp only [distinctCounts, htold, hhead]

/-! ## Lines -/

/-- The entries are of one instruction of a script of the file, here and there. -/
def EntryMoved (t : Translation) (file : String) (a b : String × Instruction) : Prop :=
  ∃ s : Script, s.filename = file ∧ a.1 = File.keyOf s a.2 ∧
    b = (File.keyOf (s.translate t) (a.2.translate t), a.2.translate t)

/-- The line there has the entries of the line here, and is marked alike. -/
structure Line.Moved (t : Translation) (file : String) (l l' : Line) : Prop where
  haltMnemonic : l'.haltMnemonic = l.haltMnemonic
  entries : List.Forall₂ (EntryMoved t file) l.entries l'.entries
  startsFunction : l'.startsFunction = l.startsFunction
  endsFunction : l'.endsFunction = l.endsFunction
  settled : l'.settled = l.settled

/-- Keys of moved scripts of one file are alike just if those of the scripts are. -/
theorem keyOf_translate_eq_iff {s s' : Script} (h : s.filename = s'.filename)
    (ins ins' : Instruction) :
    File.keyOf (s.translate t) (ins.translate t) = File.keyOf (s'.translate t) (ins'.translate t) ↔
      File.keyOf s ins = File.keyOf s' ins' := by
  have hfile : (s.translate t).filename = (s'.translate t).filename := by
    rw [Script.translate, Script.translate, h]
  rw [keyOf_eq_iff h, keyOf_eq_iff hfile, Script.translate, Script.translate,
    Instruction.translate, Instruction.translate, Int.add_left_inj]

namespace Line.Moved

variable {file : String} {l l' : Line}

theorem hasKey (h : l.Moved t file l') {s : Script} (hs : s.filename = file) (ins : Instruction) :
    l'.hasKey (File.keyOf (s.translate t) (ins.translate t)) = l.hasKey (File.keyOf s ins) := by
  have hentries := h.entries
  unfold Line.hasKey
  generalize l.entries = entries, l'.entries = entries' at hentries
  induction hentries with
  | nil => rfl
  | cons hentry _ ih =>
    obtain ⟨s₀, hs₀, hkey, rfl⟩ := hentry
    simp only [List.any_cons, ih, hkey, keyOf_translate_eq_iff (hs₀.trans hs.symm)]

theorem add (h : l.Moved t file l') {s : Script} (hs : s.filename = file) (ins : Instruction) :
    (l.add (File.keyOf s ins) ins).Moved t file
      (l'.add (File.keyOf (s.translate t) (ins.translate t)) (ins.translate t)) := by
  unfold Line.add
  rw [h.hasKey hs]
  split
  · exact h
  · exact ⟨h.haltMnemonic, List.rel_append h.entries (.cons ⟨s, hs, rfl, rfl⟩ .nil),
      h.startsFunction, h.endsFunction, h.settled⟩

theorem code (h : l.Moved t file l') : l'.code = l.code.map (·.translate t) := by
  have hentries := h.entries
  unfold Line.code
  generalize l.entries = entries, l'.entries = entries' at hentries
  induction hentries with
  | nil => rfl
  | cons hentry _ ih =>
    obtain ⟨s, -, -, rfl⟩ := hentry
    simp only [List.map_cons, ih]

theorem counts (h : l.Moved t file l') : l'.counts = l.counts := by
  rw [Line.counts, Line.counts, h.settled, h.haltMnemonic, h.code, distinctCounts_translate]

/-- What is shown of the line is the same. -/
theorem ofLine (h : l.Moved t file l') : LineSnapshot.ofLine l' = LineSnapshot.ofLine l := by
  rw [LineSnapshot.ofLine, LineSnapshot.ofLine, Line.coverage, Line.coverage, h.counts,
    h.startsFunction, h.endsFunction]

end Line.Moved

/-! ## Files -/

/-- The file there is under the moved name, and its lines are the lines here, moved. -/
structure File.Moved (t : Translation) (f f' : File) : Prop where
  filename : f'.filename = t.lead ++ f.filename
  haltMnemonic : f'.haltMnemonic = f.haltMnemonic
  lines : ∀ number,
    Option.Rel (Line.Moved t f.filename) (f.line? number) (f'.line? (number + t.offset))

namespace File.Moved

variable {f f' : File}

theorem modifyLine (h : f.Moved t f') (number : Int) {change change' : Line → Line}
    (hchange : ∀ l l', Line.Moved t f.filename l l' →
      Line.Moved t f.filename (change l) (change' l')) :
    (f.modifyLine number change).Moved t (f'.modifyLine (number + t.offset) change') := by
  refine ⟨h.filename, h.haltMnemonic, fun number' => ?_⟩
  simp only [line?_modifyLine, h.haltMnemonic, Int.add_left_inj]
  split
  · refine .some (hchange _ _ (rel_getD (h.lines number) ?_))
    exact ⟨rfl, .nil, rfl, rfl, rfl⟩
  · exact h.lines number'

theorem markEnds (h : f.Moved t f') (s : Script) :
    (f.markEnds s).Moved t (f'.markEnds (s.translate t)) := by
  have hfirst : (s.translate t).instructions[0]? = s.instructions[0]?.map (·.translate t) :=
    Array.getElem?_map
  have hlast : (s.translate t).instructions.back? = s.instructions.back?.map (·.translate t) :=
    Array.back?_map
  unfold File.markEnds
  rw [hfirst, hlast]
  cases s.instructions[0]? with
  | none => exact h
  | some first =>
    cases s.instructions.back? with
    | none => exact h
    | some last =>
      have hstarts : File.Moved t
          (f.modifyLine first.sourceLine fun l => { l with startsFunction := true })
          (f'.modifyLine (first.sourceLine + t.offset) fun l => { l with startsFunction := true }) :=
        h.modifyLine _ fun l l' hl =>
          ⟨hl.haltMnemonic, hl.entries, rfl, hl.endsFunction, hl.settled⟩
      exact hstarts.modifyLine last.sourceLine
        fun l l' hl => ⟨hl.haltMnemonic, hl.entries, hl.startsFunction, rfl, hl.settled⟩

/-- By induction on the instructions: each goes to the line there that its line here is moved to. -/
theorem addScript (h : f.Moved t f') {s : Script} (hs : s.filename = f.filename) :
    (f.addScript s).Moved t (f'.addScript (s.translate t)) := by
  have hfilled : ∀ (code : List Instruction) (f f' : File), f.Moved t f' →
      s.filename = f.filename →
      (code.foldl (fun f ins => f.modifyLine ins.sourceLine (·.add (keyOf s ins) ins)) f).Moved t
        ((code.map (·.translate t)).foldl (fun f ins =>
          f.modifyLine ins.sourceLine (·.add (keyOf (s.translate t) ins) ins)) f') := by
    intro code
    induction code with
    | nil => exact fun f f' hf _ => hf
    | cons ins rest ih =>
      intro f f' hf hs
      exact ih _ _ (hf.modifyLine ins.sourceLine fun l l' hl => hl.add hs ins) hs
  have hcode : (s.translate t).instructions.toList =
      s.instructions.toList.map (·.translate t) := Array.toList_map
  rw [File.addScript, File.addScript, hcode]
  exact markEnds (hfilled _ _ _ h hs) s

theorem ofScripts {own : List Script} {name : String} (haltMnemonic : String)
    (h : ∀ s ∈ own, s.filename = name) :
    (File.ofScripts name haltMnemonic own).Moved t
      (File.ofScripts (t.lead ++ name) haltMnemonic (own.map (·.translate t))) := by
  have hfold : ∀ (own : List Script) (f f' : File), f.Moved t f' →
      (∀ s ∈ own, s.filename = f.filename) →
      (own.foldl File.addScript f).Moved t ((own.map (·.translate t)).foldl File.addScript f') := by
    intro own
    induction own with
    | nil => exact fun f f' hf _ => hf
    | cons s rest ih =>
      intro f f' hf hown
      obtain ⟨hs, hrest⟩ := List.forall_mem_cons.1 hown
      refine ih _ _ (hf.addScript hs) ?_
      rw [filename_addScript]
      exact hrest
  refine hfold own _ _ ⟨rfl, rfl, fun number => ?_⟩ h
  simp only [line?, Std.TreeMap.getElem?_emptyc]
  exact .none

end File.Moved

/-! ## Grouping -/

variable {scripts : List Script} {haltMnemonic : String}

theorem ownScripts_translate (name : String) :
    ownScripts (scripts.map (·.translate t)) (t.lead ++ name) =
      (ownScripts scripts name).map (·.translate t) := by
  rw [ownScripts, ownScripts, List.filter_map]
  congr 1
  refine List.filter_congr fun s _ => ?_
  have hname : (s.translate t).filename = t.lead ++ name ↔ s.filename = name :=
    String.append_right_inj t.lead
  simp only [Function.comp_apply, hname]

/-- The file of a name is the file of the moved name there. -/
theorem moved_groupByFile (haltMnemonic : String) (scripts : List Script) (name : String) :
    Option.Rel (File.Moved t) (groupByFile haltMnemonic scripts)[name]?
      (groupByFile haltMnemonic (scripts.map (·.translate t)))[t.lead ++ name]? := by
  simp only [getElem?_groupByFile, ownScripts_translate, List.map_eq_nil_iff]
  split
  · exact .none
  · exact .some (.ofScripts _ fun s hs => of_decide_eq_true (List.mem_filter.1 hs).2)

/-- Each file there is of a file here. -/
theorem exists_of_mem_groupByFile {name' : String}
    (h : name' ∈ groupByFile haltMnemonic (scripts.map (·.translate t))) :
    ∃ name ∈ groupByFile haltMnemonic scripts, name' = t.lead ++ name := by
  obtain ⟨s', hs', rfl⟩ := mem_groupByFile_iff.1 h
  obtain ⟨s, hs, rfl⟩ := List.mem_map.1 hs'
  exact ⟨s.filename, mem_groupByFile_iff.2 ⟨s, hs, rfl⟩, rfl⟩

/-! ## Snapshots -/

/-- The file there is what the file here says, moved. All that is told of a line is the same, and a
snapshot has the lines that come to be numbered from one. -/
structure File.Translated (t : Translation) (f f' : File) : Prop where
  filename : f'.filename = t.lead ++ f.filename
  lines : ∀ number, (f'.line? (number + t.offset)).map LineSnapshot.ofLine =
    (f.line? number).map LineSnapshot.ofLine
  room : ∀ room : Room, (∃ s, FileSnapshot.ofFile f' room = .ok s) ↔
    ∀ number l, f.line? number = some l → number + t.offset ≤ room.lines
  snapshot : ∀ (room : Room) s, FileSnapshot.ofFile f' room = .ok s →
    s.filename = t.lead ++ f.filename ∧
      (∀ i : Nat, s.line? i = (f.line? (i + 1 - t.offset)).map LineSnapshot.ofLine) ∧
      s.Tight ∧ s.totals = s.recount

theorem File.Moved.translated {f f' : File} (h : f.Moved t f') : f.Translated t f' := by
  have hlines : ∀ number, (f'.line? (number + t.offset)).map LineSnapshot.ofLine =
      (f.line? number).map LineSnapshot.ofLine := by
    intro number
    exact (map_eq_of_rel (h.lines number) fun l l' hl => hl.ofLine.symm).symm
  refine ⟨h.filename, hlines, fun room => ?_, ?_⟩
  · rw [FileSnapshot.exists_ofFile_iff]
    constructor
    · intro hroom number l hl
      have hline := hlines number
      rw [hl, Option.map_some] at hline
      obtain ⟨l', hl', -⟩ := Option.map_eq_some_iff.1 hline
      exact hroom _ l' hl'
    · intro hroom number l' hl'
      have hline := hlines (number - t.offset)
      rw [Int.sub_add_cancel, hl', Option.map_some] at hline
      obtain ⟨l, hl, -⟩ := Option.map_eq_some_iff.1 hline.symm
      have hplace := hroom _ l hl
      omega
  · intro room s hs
    have htaken := FileSnapshot.taken_of_ofFile hs
    refine ⟨htaken.filename.trans h.filename, fun i => ?_, htaken.tight, htaken.totals⟩
    rw [FileSnapshot.line?_ofFile hs, ← hlines, Int.sub_add_cancel]

/-! ## Texts -/

/-- Where every file and line is moved alike, a text makes the same scripts, moved, or fails for the
same reason. The scripts can be grouped in both places, and their files are the same files, moved. -/
theorem coverage_translate (t : Translation) (d : Dialect) {text : String}
    (hprint : ∀ record ∈ recordsOf { dialect := d } text, t.Prints d record) :
    (∃ name, scriptsOf { dialect := d, relocate := t.relocation } text =
      ((scriptsOf { dialect := d } text).map (·.map (·.translate t))).mapError (.rename name)) ∧
    ∀ scripts, scriptsOf { dialect := d } text = .ok scripts →
      ∃ files files', groupScripts d.haltMnemonic scripts = .ok files ∧
        groupScripts d.haltMnemonic (scripts.map (·.translate t)) = .ok files' ∧
        (∀ name' ∈ files', ∃ name ∈ files, name' = t.lead ++ name) ∧
        ∀ name, Option.Rel (File.Translated t) files[name]? files'[t.lead ++ name]? := by
  refine ⟨scriptsOf_translate hprint, fun scripts hscripts => ?_⟩
  obtain ⟨name, hmoved⟩ := scriptsOf_translate hprint
  rw [hscripts] at hmoved
  refine ⟨_, _, groupScripts_of_scriptsOf hscripts _, groupScripts_of_scriptsOf hmoved _, ?_, ?_⟩
  · exact fun name' => exists_of_mem_groupByFile
  · exact fun name =>
      rel_imp (moved_groupByFile d.haltMnemonic scripts name) fun _ _ _ h => h.translated

/-- Two dumps of a script that a preprocessor put two lines in front of. -/
def prefacedText : String :=
  "--- SCRIPT a.js:3 ---\n0:5/0/0 x 2 ifeq 1\n1:0/0/0 x 3 stop\n--- END SCRIPT\n" ++
    "--- SCRIPT a.js:3 ---\n0:1/0/0 x 2 ifeq 1\n1:1/0/0 x 3 stop\n--- END SCRIPT"

def prefacedScript : Script :=
  { filename := "a.js"
    startLine := 3
    instructions :=
      #[{ address := 0, sourceLine := 2, text := "ifeq 1", count := 6, reachable := true,
          entryTarget := true },
        { address := 1, sourceLine := 3, text := "stop", count := 1, reachable := true,
          entryTarget := true }] }

/-- The two lines are taken away, and the file is named by its path. -/
def unprefaced : Translation := { lead := "lib/", offset := -2 }

/-- The line that comes to be numbered zero is in the file and not in its snapshot. -/
theorem coverage_translate_unprefaced :
    (∀ record ∈ recordsOf {} prefacedText, unprefaced.Prints {} record) ∧
    scriptsOf {} prefacedText = .ok [prefacedScript] ∧
    scriptsOf { relocate := unprefaced.relocation } prefacedText =
      .ok [prefacedScript.translate unprefaced] ∧
    ∃ f f' s, (groupByFile "stop" [prefacedScript])["a.js"]? = some f ∧
      (groupByFile "stop" [prefacedScript.translate unprefaced])["lib/a.js"]? = some f' ∧
      f.Translated unprefaced f' ∧ FileSnapshot.ofFile f' = .ok s ∧
      s.totals = { full := 1 } := by
  have hprint : ∀ record ∈ recordsOf {} prefacedText, unprefaced.Prints {} record := by
    decide +kernel
  have hscripts : scriptsOf {} prefacedText = .ok [prefacedScript] := by decide +kernel
  obtain ⟨⟨name, hmoved⟩, hall⟩ := coverage_translate unprefaced {} hprint
  obtain ⟨files, files', hfiles, hfiles', -, hrel⟩ := hall _ hscripts
  obtain ⟨-, rfl⟩ := groupScripts_eq_ok_iff.1 hfiles
  obtain ⟨-, rfl⟩ := groupScripts_eq_ok_iff.1 hfiles'
  have hsome : (groupByFile "stop" [prefacedScript])["a.js"]?.isSome := by decide +kernel
  obtain ⟨f, hf⟩ := Option.isSome_iff_exists.1 hsome
  have htotals : (groupByFile "stop" [prefacedScript.translate unprefaced])["lib/a.js"]?.map
      (fun f' => (FileSnapshot.ofFile f').map (·.totals)) =
        some (.ok { full := 1 }) := by decide +kernel
  obtain ⟨f', hf', hsnapshot⟩ := Option.map_eq_some_iff.1 htotals
  obtain ⟨s, hs, htotals⟩ := map_eq_ok_iff.1 hsnapshot
  have hfile : Option.Rel (File.Translated unprefaced) (some f) (some f') :=
    hf ▸ hf' ▸ hrel "a.js"
  rw [hscripts] at hmoved
  cases hfile with
  | some htranslated =>
    exact ⟨hprint, hscripts, hmoved, f, f', s, hf, hf', htranslated, hs, htotals⟩

def shortText : String := "--- SCRIPT a.js:1 ---\n0:1/0/0 x 1 stop\n--- END SCRIPT ---"

/-- Below where any list of lines ends. -/
def farDown : Translation := { offset := 10000000000000000000 }

/-- The snapshot of a file of a text, if there is the file. -/
def snapshotIn (relocate : Relocation) (text file : String) (room : Room) :
    Except Fault (Option (Except Fault FileSnapshot)) :=
  (scriptsOf { relocate } text).map fun scripts =>
    (groupByFile "stop" scripts)[file]?.map (FileSnapshot.ofFile · room)

/-- The scripts of the text are moved, and all numbers can be written, but the file that has a
snapshot here has none there, whatever room there is. -/
theorem snapshotIn_farDown :
    (∀ record ∈ recordsOf {} shortText, farDown.Prints {} record) ∧
    (scriptsOf { relocate := farDown.relocation } shortText).isOk ∧
    snapshotIn .identity shortText "a.js" .usual = .ok (some (.ok
      { filename := "a.js"
        totals := { full := 1 }
        lines := #[some { coverage := .full, counts := [1], startsFunction := true,
                          endsFunction := true }] })) ∧
    ∀ room, snapshotIn farDown.relocation shortText "a.js" room =
      .ok (some (.error .gapTooLong)) := by
  refine ⟨by decide +kernel, by decide +kernel, by decide +kernel, fun room => ?_⟩
  have hnumbers : (scriptsOf { relocate := farDown.relocation } shortText).map (fun scripts =>
      (groupByFile "stop" scripts)["a.js"]?.map fun f =>
        (FileSnapshot.shownLines f).map (·.1)) = .ok (some [10000000000000000001]) := by
    decide +kernel
  obtain ⟨scripts, hscripts, hfile⟩ := map_eq_ok_iff.1 hnumbers
  obtain ⟨f, hf, hlines⟩ := Option.map_eq_some_iff.1 hfile
  obtain ⟨entry, rest, hshown, hfirst, -⟩ := List.map_eq_cons_iff.1 hlines
  have hnone := FileSnapshot.ofFile_of_far hshown (by rw [hfirst]; decide) room
  have hfound : (groupByFile "stop" scripts)["a.js"]?.map (FileSnapshot.ofFile · room) =
      some (.error .gapTooLong) := by rw [hf, Option.map_some, hnone]
  rw [snapshotIn, hscripts]
  exact congrArg Except.ok hfound

end BytecodeCoverage
