-- SUMMARY: A file hangs on the records of its own scripts alone, whatever stands between them.
import BytecodeCoverage.Proofs.Coverage.Grouping
import BytecodeCoverage.Proofs.Session.Texts
import BytecodeCoverage.Snapshot

/-!
# Isolation of files

One registry holds the scripts of all files, and one signature table tells which of them are there.
Still no file gets anything from the records of another: a signature tells the file of its script,
so a record only ever meets entries of its own file. Leaving out the records of all other files
leaves out their entries and nothing else.
-/

namespace BytecodeCoverage

namespace Session

/-! ## Entries of one file -/

/-- The registered scripts of a file. -/
def ownEntries (registry : List Registered) (file : String) : List Registered :=
  registry.filter (·.script.filename = file)

theorem ownEntries_nil (file : String) : [] = ownEntries [] file := rfl

theorem scripts_ownEntries (registry : List Registered) (file : String) :
    (ownEntries registry file).map (·.script) = ownScripts (registry.map (·.script)) file := by
  rw [ownScripts, List.filter_map]
  rfl

section Entries

variable {registry registry' : List Registered} {dumps : List Script} {script : Script}
  {entry : Registered} {file : String}

/-- What is registered under the signature of a dump has its shape. -/
theorem Collected.shape_eq (h : Collected registry dumps) (hscript : IsDump script)
    (hentry : entry ∈ registry) (hsame : entry.signature = script.signature) :
    entry.script.shape = script.shape := by
  obtain ⟨dump, hdump, hsignature⟩ := h.mem_signatures.1 ⟨entry, hentry, hsame⟩
  have hmem : dump ∈ dumpsOf entry.signature dumps :=
    List.mem_filter.2 ⟨hdump, decide_eq_true (hsignature.trans hsame.symm)⟩
  obtain ⟨marked, hmarked, hmarks⟩ := (h.gathers entry hentry).marks dump hmem
  obtain ⟨-, rfl⟩ := Script.analyze_eq_ok hmarked
  calc entry.script.shape
      = entry.script.uncounted.shape := entry.script.shape_uncounted.symm
    _ = dump.marked.shape := by rw [← hmarks, Script.shape_uncounted]
    _ = dump.shape := dump.shape_marked
    _ = script.shape := (Script.signature_eq_iff (h.recorded dump hdump).1 hscript.1).1 hsignature

theorem Collected.filename_eq (h : Collected registry dumps) (hscript : IsDump script)
    (hentry : entry ∈ registry) (hsame : entry.signature = script.signature) :
    entry.script.filename = script.filename :=
  congrArg Prod.fst (h.shape_eq hscript hentry hsame)

/-- A table of which some entries are left out still has those that a signature is looked for. -/
theorem find?_ownEntries {signature : String}
    (h : ∀ entry ∈ registry, entry.signature = signature → entry.script.filename = file) :
    (ownEntries registry file).find? (·.signature = signature) =
      registry.find? (·.signature = signature) := by
  rw [ownEntries, ← List.head?_filter, ← List.head?_filter, List.filter_filter]
  refine congrArg List.head? (List.filter_congr fun entry hentry => ?_)
  by_cases hsame : entry.signature = signature
  · simp [hsame, h entry hentry hsame]
  · simp [hsame]

/-- Replacing a script by one of the same file changes no other file. -/
theorem ownEntries_replace {signature : String} {script' : Script}
    (hnodup : (registry.map (·.signature)).Nodup)
    (h : ∀ entry ∈ registry, entry.signature = signature →
      entry.script.filename = script'.filename) :
    ownEntries (replace registry signature script') file =
      replace (ownEntries registry file) signature script' := by
  have hown : ((ownEntries registry file).map (·.signature)).Nodup :=
    hnodup.sublist (List.filter_sublist.map _)
  rw [replace_eq_map hnodup, replace_eq_map hown, ownEntries, List.filter_map, ownEntries]
  congr 1
  refine List.filter_congr fun entry hentry => ?_
  simp only [Function.comp_apply]
  split
  · rename_i hsame
    rw [h entry hentry hsame]
  · rfl

/-! ## One record -/

/-- A script of the file meets the same entries where those of other files are left out. -/
theorem register_own (h : Collected registry dumps) (hscript : IsDump script)
    (hfile : script.filename = file) (hregister : register registry script = .ok registry') :
    register (ownEntries registry file) script = .ok (ownEntries registry' file) := by
  have hnames : ∀ entry ∈ registry, entry.signature = script.signature →
      entry.script.filename = file := fun entry hentry hsame =>
    (h.filename_eq hscript hentry hsame).trans hfile
  obtain ⟨hsign, hcases⟩ := register_eq_ok_iff.1 hregister
  rw [register_eq_ok_iff, find?_ownEntries hnames]
  refine ⟨hsign, ?_⟩
  rcases hcases with ⟨kept, merged, hfind, hmerged, rfl⟩ | ⟨marked, hfind, hmarked, rfl⟩
  · have hkept : kept.signature = script.signature := by simpa using List.find?_some hfind
    have hname : merged.filename = file := by
      rw [Script.addCounts_eq_ok hmerged]
      exact hnames kept (List.mem_of_find?_eq_some hfind) hkept
    refine .inl ⟨kept, merged, hfind, hmerged,
      ownEntries_replace h.nodup fun entry hentry hsame => ?_⟩
    exact (hnames entry hentry hsame).trans hname.symm
  · have hname : marked.filename = file := by
      rw [(Script.analyze_eq_ok hmarked).2]
      exact hfile
    refine .inr ⟨marked, hfind, hmarked, ?_⟩
    rw [ownEntries, List.filter_append, List.filter_cons_of_pos (by simpa using hname)]
    rfl

/-- A script of another file leaves those of the file as they are. -/
theorem ownEntries_register (h : Collected registry dumps) (hscript : IsDump script)
    (hfile : script.filename ≠ file) (hregister : register registry script = .ok registry') :
    ownEntries registry' file = ownEntries registry file := by
  obtain ⟨-, ⟨kept, merged, hfind, hmerged, rfl⟩ | ⟨marked, -, hmarked, rfl⟩⟩ :=
    register_eq_ok_iff.1 hregister
  · have hkept : kept.signature = script.signature := by simpa using List.find?_some hfind
    have hname : merged.filename = script.filename := by
      rw [Script.addCounts_eq_ok hmerged]
      exact h.filename_eq hscript (List.mem_of_find?_eq_some hfind) hkept
    have hnames : ∀ entry ∈ registry, entry.signature = script.signature →
        entry.script.filename = merged.filename := fun entry hentry hsame =>
      (h.filename_eq hscript hentry hsame).trans hname.symm
    rw [ownEntries_replace h.nodup hnames]
    refine replace_of_not_mem (fun entry hentry hsame => hfile ?_) merged
    obtain ⟨hmem, hown⟩ := List.mem_filter.1 hentry
    exact (h.filename_eq hscript hmem hsame).symm.trans (of_decide_eq_true hown)
  · have hname : marked.filename ≠ file := by
      rw [(Script.analyze_eq_ok hmarked).2]
      exact hfile
    rw [ownEntries, List.filter_append, List.filter_cons_of_neg (by simpa using hname)]
    exact List.append_nil _

end Entries

/-! ## Many records -/

/-- The record is of a script of the file. -/
def isOfFile (g : Grammar) (file : String) (record : List String) : Bool :=
  match Script.ofRecord g.dialect g.relocate record with
  | .ok script => script.filename = file
  | .error _ => false

variable {g : Grammar} {s t s' : Session} {records : List (List String)} {file : String}

/-- By induction on the records: the session that takes all of them has, under the name of the
file, what the one has that takes those of the file. -/
theorem addRecords_own (hrelocate : g.relocate.KeepsLines) (hrecords : AreLines records)
    {dumps : List Script} (hs : Collected s.registry dumps)
    (ht : t.registry = ownEntries s.registry file) (h : addRecords g s records = .ok s') :
    ∃ t', addRecords g t (records.filter (isOfFile g file)) = .ok t' ∧
      t'.registry = ownEntries s'.registry file := by
  induction records generalizing s t dumps with
  | nil =>
    cases h
    exact ⟨t, rfl, ht⟩
  | cons record rest ih =>
    have hrest : AreLines rest := fun record' hrecord' => hrecords record' (.tail _ hrecord')
    obtain ⟨next, hnext, h⟩ := addRecords_cons_eq_ok_iff.1 h
    obtain ⟨script, hscript, hregister⟩ := addRecord_eq_ok hnext
    have hdump : IsDump script := isDump_of_ofRecord hrelocate (hrecords record (.head _)) hscript
    have hcollected := hs.register hdump hregister
    by_cases hfile : script.filename = file
    · have hown : isOfFile g file record = true := by
        rw [isOfFile, hscript]
        exact decide_eq_true hfile
      have htaken : t.addRecord g record =
          .ok (t.withRegistry (ownEntries next.registry file)) :=
        addRecord_of_register hscript (ht ▸ register_own hs hdump hfile hregister)
      obtain ⟨t', ht', hregistry⟩ := ih hrest hcollected registry_withRegistry h
      refine ⟨t', ?_, hregistry⟩
      rw [List.filter_cons_of_pos hown]
      exact addRecords_cons_eq_ok_iff.2 ⟨_, htaken, ht'⟩
    · have hother : ¬ isOfFile g file record = true := by
        rw [isOfFile, hscript]
        simpa using hfile
      rw [List.filter_cons_of_neg hother]
      exact ih hrest hcollected (ht.trans (ownEntries_register hs hdump hfile hregister).symm) h

/-- Where no record fails, the file of a name is the one that the records of its own scripts make,
and so is its snapshot. -/
theorem file_of_own_records (hrelocate : g.relocate.KeepsLines) (hrecords : AreLines records)
    (h : addRecords g {} records = .ok s) (file : String) :
    ∃ own, addRecords g {} (records.filter (isOfFile g file)) = .ok own ∧
      own.scripts = ownScripts s.scripts file ∧
      (groupByFile g.dialect.haltMnemonic own.scripts)[file]? =
        (groupByFile g.dialect.haltMnemonic s.scripts)[file]? ∧
      (groupByFile g.dialect.haltMnemonic own.scripts)[file]?.map (FileSnapshot.ofFile · g.room) =
        (groupByFile g.dialect.haltMnemonic s.scripts)[file]?.map
          (FileSnapshot.ofFile · g.room) := by
  obtain ⟨own, hown, hregistry⟩ :=
    addRecords_own (s := {}) (t := {}) hrelocate hrecords .nil (ownEntries_nil file) h
  have hscripts : own.scripts = ownScripts s.scripts file := by
    rw [scripts_eq, hregistry, scripts_ownEntries, ← scripts_eq]
  have htwice : ownScripts own.scripts file = ownScripts s.scripts file := by
    rw [hscripts, ownScripts, ownScripts, List.filter_filter]
    simp only [Bool.and_self]
  have hfiles : (groupByFile g.dialect.haltMnemonic own.scripts)[file]? =
      (groupByFile g.dialect.haltMnemonic s.scripts)[file]? := by
    rw [getElem?_groupByFile, getElem?_groupByFile, htwice]
  exact ⟨own, hown, hscripts, hfiles, congrArg _ hfiles⟩

/-- Two dumps of a script, and between them one of a script that is the same but for its file. -/
def interleaved : List (List String) :=
  [["--- SCRIPT a.js:1 ---", "0:2/0/0 x 1 pop", "1:2/0/0 x 2 stop", "--- END SCRIPT ---"],
   ["--- SCRIPT b.js:1 ---", "0:0/0/0 x 1 pop", "1:7/0/0 x 2 stop", "--- END SCRIPT ---"],
   ["--- SCRIPT a.js:1 ---", "0:3/0/0 x 1 pop", "1:1/0/0 x 2 stop", "--- END SCRIPT ---"]]

theorem file_of_interleaved :
    ({} : Grammar).relocate.KeepsLines ∧ AreLines interleaved ∧
    ∃ s own, addRecords {} {} interleaved = .ok s ∧
      addRecords {} {} [interleaved[0], interleaved[2]] = .ok own ∧
      own.scripts.map (·.counts) = [[5, 3]] ∧
      (groupByFile "stop" own.scripts)["a.js"]? = (groupByFile "stop" s.scripts)["a.js"]? := by
  have hrelocate : ({} : Grammar).relocate.KeepsLines := fun _ _ h => h
  have hrecords : AreLines interleaved := by
    unfold AreLines
    decide
  have htaken : addRecords {} {} interleaved = .ok (attemptAll {} {} interleaved) := by
    decide +kernel
  have hfilter : interleaved.filter (isOfFile {} "a.js") = [interleaved[0], interleaved[2]] := by
    decide +kernel
  have hcounts : (ownScripts (attemptAll {} {} interleaved).scripts "a.js").map (·.counts) =
      [[5, 3]] := by decide +kernel
  obtain ⟨own, hown, hscripts, hfile, -⟩ := file_of_own_records hrelocate hrecords htaken "a.js"
  exact ⟨hrelocate, hrecords, _, own, htaken, hfilter ▸ hown, hscripts ▸ hcounts, hfile⟩

end Session

end BytecodeCoverage
