-- SUMMARY: What holds of every dump: the order and the names of its snapshots, and each of them.
import BytecodeCoverage.Proofs.Coverage.Grouping
import BytecodeCoverage.Proofs.Session.Texts
import BytecodeCoverage.Proofs.Store.Revision

/-!
# Dumps

A dump shows files in the order of their names, each of them once. The snapshots are taken line by
line, so each ends in a line that is no gap and has the totals of its lines.
-/

namespace BytecodeCoverage

/-! ## One snapshot -/

/-- There is no room for a line. -/
def Fault.IsOfRoom : Fault → Prop
  | .gapTooLong | .outOfRoom => True
  | _ => False

namespace FileSnapshot

variable {room : Room}

/-- A snapshot of a file, as it is taken. -/
structure Taken (f : File) (s : FileSnapshot) : Prop where
  filename : s.filename = f.filename
  tight : s.Tight
  totals : s.totals = s.recount

theorem tight_empty (name : String) : Tight { filename := name } := by
  intro i hi
  cases hi

theorem putLine_ok {s s' : FileSnapshot} {i : Nat} {line : LineSnapshot}
    (h : s.putLine i line room = .ok s') : s' = s.setLine i line := by
  unfold putLine at h
  split at h
  · cases h
  · split at h
    · cases h
    · exact (Except.ok.inj h).symm

theorem foldlM_putLine {entries : List (Int × Line)} {s s' : FileSnapshot} (hs : s.Tight)
    (h : entries.foldlM (fun (s : FileSnapshot) entry =>
      s.putLine (entry.1 - 1).toNat (.ofLine entry.2) room) s = .ok s') :
    s'.filename = s.filename ∧ s'.Tight := by
  induction entries generalizing s with
  | nil =>
    cases h
    exact ⟨rfl, hs⟩
  | cons entry rest ih =>
    rw [List.foldlM_cons] at h
    cases hput : s.putLine (entry.1 - 1).toNat (.ofLine entry.2) room with
    | error fault =>
      rw [hput] at h
      cases h
    | ok next =>
      rw [hput] at h
      have hnext := putLine_ok hput
      have htight : next.Tight := hnext ▸ hs.setLine _ _
      have hfile : next.filename = s.filename := by rw [hnext, filename_setLine]
      obtain ⟨hname, hlast⟩ := ih htight h
      exact ⟨hname.trans hfile, hlast⟩

theorem taken_of_ofFile {f : File} {s : FileSnapshot} (h : ofFile f room = .ok s) : Taken f s := by
  simp only [ofFile] at h
  cases hfill : (f.lines.toList.filter fun entry => isShown entry.1).foldlM
      (fun (s : FileSnapshot) entry => s.putLine (entry.1 - 1).toNat (.ofLine entry.2) room)
      { filename := f.filename } with
  | error fault =>
    rw [hfill] at h
    cases h
  | ok filled =>
    rw [hfill] at h
    cases h
    obtain ⟨hname, htight⟩ := foldlM_putLine (tight_empty f.filename) hfill
    exact ⟨hname, htight, rfl⟩

theorem fault_putLine {s : FileSnapshot} {i : Nat} {line : LineSnapshot} {fault : Fault}
    (h : s.putLine i line room = .error fault) : fault.IsOfRoom := by
  unfold putLine at h
  split at h
  · cases h
    trivial
  · split at h
    · cases h
      trivial
    · cases h

theorem fault_foldlM_putLine {entries : List (Int × Line)} {s : FileSnapshot} {fault : Fault}
    (h : entries.foldlM (fun (s : FileSnapshot) entry =>
      s.putLine (entry.1 - 1).toNat (.ofLine entry.2) room) s = .error fault) : fault.IsOfRoom := by
  induction entries generalizing s with
  | nil => cases h
  | cons entry rest ih =>
    rw [List.foldlM_cons] at h
    cases hput : s.putLine (entry.1 - 1).toNat (.ofLine entry.2) room with
    | error e =>
      rw [hput] at h
      cases h
      exact fault_putLine hput
    | ok next =>
      rw [hput] at h
      exact ih h

/-- The only way in which a file has no snapshot. -/
theorem fault_ofFile {f : File} {fault : Fault} (h : ofFile f room = .error fault) :
    fault.IsOfRoom := by
  simp only [ofFile] at h
  cases hfill : (f.lines.toList.filter fun entry => isShown entry.1).foldlM
      (fun (s : FileSnapshot) entry => s.putLine (entry.1 - 1).toNat (.ofLine entry.2) room)
      { filename := f.filename } with
  | error e =>
    rw [hfill] at h
    cases h
    exact fault_foldlM_putLine hfill
  | ok filled =>
    rw [hfill] at h
    cases h

end FileSnapshot

/-! ## All snapshots -/

namespace Dump

variable {room : Room}

/-- The names of the snapshots. -/
def names (dump : Dump) : List String := dump.snapshots.map (·.filename)

theorem taken_of_mem {files : List File} {s : FileSnapshot} (h : s ∈ (ofFiles room files).snapshots) :
    ∃ f ∈ files, FileSnapshot.Taken f s := by
  induction files with
  | nil => cases h
  | cons f rest ih =>
    unfold ofFiles at h
    split at h
    · cases h
    · rename_i snapshot hsnapshot
      cases h with
      | head => exact ⟨f, .head _, FileSnapshot.taken_of_ofFile hsnapshot⟩
      | tail _ h =>
        obtain ⟨g, hg, htaken⟩ := ih h
        exact ⟨g, .tail _ hg, htaken⟩

/-- The snapshots of a dump are those of the files before the first that has none. -/
theorem snapshots_ofFiles (room : Room) (files : List File) :
    (ofFiles room files).snapshots.map Except.ok =
      (files.map (FileSnapshot.ofFile · room)).takeWhile (·.isOk) := by
  induction files with
  | nil => rfl
  | cons f rest ih =>
    rw [List.map_cons, List.takeWhile_cons]
    unfold ofFiles
    cases FileSnapshot.ofFile f room with
    | error fault => rfl
    | ok snapshot => exact congrArg (Except.ok snapshot :: ·) ih

/-- A dump shows the first files, up to one that there is no room for. -/
theorem names_prefix (room : Room) (files : List File) : (ofFiles room files).names <+: files.map (·.filename) := by
  induction files with
  | nil => exact List.prefix_rfl
  | cons f rest ih =>
    unfold ofFiles
    split
    · exact List.nil_prefix
    · rename_i snapshot hsnapshot
      have hname := (FileSnapshot.taken_of_ofFile hsnapshot).filename
      simp only [names, List.map_cons, hname]
      exact List.cons_prefix_cons.2 ⟨rfl, ih⟩

/-- With room for all files, a dump shows all of them. -/
theorem names_of_fault_eq_none {files : List File} (h : (ofFiles room files).fault = none) :
    (ofFiles room files).names = files.map (·.filename) := by
  induction files with
  | nil => rfl
  | cons f rest ih =>
    unfold ofFiles at h ⊢
    split at h
    · cases h
    · rename_i snapshot hsnapshot
      have hname := (FileSnapshot.taken_of_ofFile hsnapshot).filename
      simp only [names, List.map_cons, hname]
      exact congrArg (f.filename :: ·) (ih h)

theorem fault_ofFiles {files : List File} {fault : Fault}
    (h : (ofFiles room files).fault = some fault) : fault.IsOfRoom := by
  induction files with
  | nil => cases h
  | cons f rest ih =>
    unfold ofFiles at h
    split at h
    · rename_i e hfile
      cases h
      exact FileSnapshot.fault_ofFile hfile
    · exact ih h

end Dump

/-! ## The dump of a text -/

theorem lt_of_compare {a b : String} (h : compare a b = .lt) : a < b := by
  have hcompare : compare a b = compareOfLessAndEq a b := rfl
  rw [hcompare, compareOfLessAndEq_eq_lt] at h
  exact h

theorem keys_ascending {β : Type} (map : Std.TreeMap String β) : map.keys.Pairwise (· < ·) :=
  Std.TreeMap.ordered_keys.imp lt_of_compare

variable {g : Grammar} {text : String} {dump : Dump}

/-- The scripts of a text can always be grouped. -/
theorem groupScripts_of_scriptsOf {scripts : List Script} (h : scriptsOf g text = .ok scripts)
    (haltMnemonic : String) :
    groupScripts haltMnemonic scripts = .ok (groupByFile haltMnemonic scripts) :=
  groupScripts_eq_ok_iff.2
    ⟨fun s hs => Script.keysAreWritable_of_isWritable (isWritable_of_scriptsOf h s hs), rfl⟩

/-- A text has a dump if it has scripts, and fails as they do. -/
theorem dumpOf_eq (g : Grammar) (text : String) :
    dumpOf g text = (scriptsOf g text).map fun scripts =>
      .ofFiles g.room (filesOf g.dialect.haltMnemonic scripts) := by
  unfold dumpOf
  cases hscripts : scriptsOf g text with
  | error fault => rfl
  | ok scripts =>
    simp only [bind, Except.bind, groupScripts_of_scriptsOf hscripts]
    rfl

theorem scriptsOf_of_dumpOf (h : dumpOf g text = .ok dump) :
    ∃ scripts, scriptsOf g text = .ok scripts ∧
      dump = .ofFiles g.room (filesOf g.dialect.haltMnemonic scripts) := by
  rw [dumpOf_eq] at h
  obtain ⟨scripts, hscripts, rfl⟩ := map_eq_ok_iff.1 h
  exact ⟨scripts, hscripts, rfl⟩

/-- A text that nothing is wrong with shows all files of its scripts. -/
theorem exists_scripts_of_dumpOf (h : dumpOf g text = .ok dump) (hfault : dump.fault = none) :
    ∃ scripts, scriptsOf g text = .ok scripts ∧
      dump.names = (groupByFile g.dialect.haltMnemonic scripts).keys := by
  obtain ⟨scripts, hscripts, rfl⟩ := scriptsOf_of_dumpOf h
  exact ⟨scripts, hscripts, (Dump.names_of_fault_eq_none hfault).trans names_filesOf⟩

/-- A dump shows a file once, and its snapshots are as they are taken of files. -/
structure WellFormed (dump : List FileSnapshot) : Prop where
  nodup : (dump.map (·.filename)).Nodup
  tight : ∀ new ∈ dump, new.Tight
  totals : ∀ new ∈ dump, new.totals = new.recount

theorem ascending_of_dumpOf (h : dumpOf g text = .ok dump) :
    (dump.snapshots.map (·.filename)).Pairwise (· < ·) := by
  obtain ⟨scripts, -, rfl⟩ := scriptsOf_of_dumpOf h
  refine List.Pairwise.sublist (Dump.names_prefix _ _).sublist ?_
  rw [names_filesOf]
  exact keys_ascending _

theorem wellFormed_of_dumpOf (h : dumpOf g text = .ok dump) : WellFormed dump.snapshots := by
  have hascending := ascending_of_dumpOf h
  obtain ⟨scripts, -, rfl⟩ := scriptsOf_of_dumpOf h
  refine ⟨?_, ?_, ?_⟩
  · exact hascending.imp String.ne_of_lt
  · intro new hnew
    obtain ⟨f, -, htaken⟩ := Dump.taken_of_mem hnew
    exact htaken.tight
  · intro new hnew
    obtain ⟨f, -, htaken⟩ := Dump.taken_of_mem hnew
    exact htaken.totals

end BytecodeCoverage
