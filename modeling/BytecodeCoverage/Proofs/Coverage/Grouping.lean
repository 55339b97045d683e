-- SUMMARY: What a file of some scripts is made of: the scripts under its name, in their order.
import BytecodeCoverage.Coverage.File

/-!
# Grouping

A file is made of the scripts that are under its name, and of no others. There is a file for each
name that a script has.
-/

namespace BytecodeCoverage

namespace File

@[simp] theorem filename_modifyLine (f : File) (number : Int) (change : Line → Line) :
    (f.modifyLine number change).filename = f.filename := rfl

@[simp] theorem filename_markEnds (f : File) (s : Script) :
    (f.markEnds s).filename = f.filename := by
  unfold markEnds
  split
  · rfl
  · rfl

@[simp] theorem filename_addScript (f : File) (s : Script) :
    (f.addScript s).filename = f.filename := by
  rw [addScript, filename_markEnds]
  induction s.instructions.toList generalizing f with
  | nil => rfl
  | cons ins rest ih => exact ih _

/-- The file that some scripts make under one name. -/
def ofScripts (name haltMnemonic : String) (own : List Script) : File :=
  own.foldl addScript { filename := name, haltMnemonic }

theorem filename_foldl_addScript (own : List Script) (f : File) :
    (own.foldl addScript f).filename = f.filename := by
  induction own generalizing f with
  | nil => rfl
  | cons s rest ih => exact (ih _).trans (filename_addScript f s)

@[simp] theorem filename_ofScripts (name haltMnemonic : String) (own : List Script) :
    (ofScripts name haltMnemonic own).filename = name := filename_foldl_addScript own _

end File

variable {haltMnemonic name : String} {scripts : List Script}

/-- Scripts are grouped if their keys can be written. -/
theorem groupScripts_eq_ok_iff {files : Std.TreeMap String File} :
    groupScripts haltMnemonic scripts = .ok files ↔
      (∀ s ∈ scripts, s.keysAreWritable) ∧ files = groupByFile haltMnemonic scripts := by
  rw [← List.all_eq_true, groupScripts]
  split
  · rename_i hwritable
    exact ⟨fun h => ⟨hwritable, (Except.ok.inj h).symm⟩, fun h => h.2 ▸ rfl⟩
  · rename_i hoverlong
    exact ⟨nofun, fun h => absurd h.1 hoverlong⟩

theorem fault_groupScripts {fault : Fault} (h : groupScripts haltMnemonic scripts = .error fault) :
    fault = .overlongNumber := by
  rw [groupScripts] at h
  split at h
  · cases h
  · exact (Except.error.inj h).symm

theorem Script.keysAreWritable_iff {s : Script} :
    s.keysAreWritable ↔ ∀ ins ∈ s.instructions,
      Numeral.isWritable s.startLine ∧ Numeral.isWritable ins.address := by
  simp only [keysAreWritable, Array.all_eq_true_iff_forall_mem, Bool.and_eq_true, nameIsWritable]

/-- A script that can be signed has keys that can be written. -/
theorem Script.keysAreWritable_of_isWritable {s : Script} (h : s.isWritable) :
    s.keysAreWritable := by
  rw [isWritable, Bool.and_eq_true, Array.all_eq_true_iff_forall_mem] at h
  refine keysAreWritable_iff.2 fun ins hins => ⟨h.1, ?_⟩
  have hnumbers := h.2 ins hins
  rw [Instruction.isWritable, Bool.and_eq_true] at hnumbers
  exact hnumbers.1

/-- The scripts under a name. -/
def ownScripts (scripts : List Script) (name : String) : List Script :=
  scripts.filter (·.filename = name)

/-- By induction on the scripts: one under the name goes into the file, and another leaves it. -/
theorem getElem?_foldl_alter (files : Std.TreeMap String File) :
    (scripts.foldl
      (fun files s => files.alter s.filename fun old =>
        some ((old.getD { filename := s.filename, haltMnemonic }).addScript s)) files)[name]? =
      (ownScripts scripts name).foldl
        (fun old s => some ((old.getD { filename := name, haltMnemonic }).addScript s))
        files[name]? := by
  induction scripts generalizing files with
  | nil => rfl
  | cons s rest ih =>
    rw [List.foldl_cons, ih, Std.TreeMap.getElem?_alter]
    by_cases hs : s.filename = name
    · subst hs
      simp [ownScripts]
    · simp [ownScripts, hs]

theorem foldl_some_addScript (own : List Script) (f fresh : File) :
    own.foldl (fun old s => some ((old.getD fresh).addScript s)) (some f) =
      some (own.foldl File.addScript f) := by
  induction own generalizing f with
  | nil => rfl
  | cons s rest ih => exact ih _

theorem getElem?_groupByFile :
    (groupByFile haltMnemonic scripts)[name]? =
      if ownScripts scripts name = [] then none
      else some (File.ofScripts name haltMnemonic (ownScripts scripts name)) := by
  rw [groupByFile, getElem?_foldl_alter, Std.TreeMap.getElem?_emptyc]
  cases ownScripts scripts name with
  | nil => rfl
  | cons s rest => exact foldl_some_addScript rest _ _

theorem filename_of_groupByFile {f : File}
    (h : (groupByFile haltMnemonic scripts)[name]? = some f) : f.filename = name := by
  rw [getElem?_groupByFile] at h
  split at h
  · cases h
  · cases h
    exact File.filename_ofScripts _ _ _

/-- There is a file for each name that a script has. -/
theorem mem_groupByFile_iff :
    name ∈ groupByFile haltMnemonic scripts ↔ ∃ s ∈ scripts, s.filename = name := by
  rw [Std.TreeMap.mem_iff_isSome_getElem?, getElem?_groupByFile]
  have hown : ownScripts scripts name = [] ↔ ¬ ∃ s ∈ scripts, s.filename = name := by
    simp [ownScripts]
  split
  · rename_i hnone
    simp [hown.1 hnone]
  · rename_i hsome
    simpa using mt hown.2 hsome

/-- The files that scripts make, in the order of their names. -/
def filesOf (haltMnemonic : String) (scripts : List Script) : List File :=
  (groupByFile haltMnemonic scripts).toList.map (·.2)

theorem names_filesOf :
    (filesOf haltMnemonic scripts).map (·.filename) = (groupByFile haltMnemonic scripts).keys := by
  rw [filesOf, List.map_map, ← Std.TreeMap.map_fst_toList_eq_keys]
  refine List.map_congr_left ?_
  rintro ⟨key, f⟩ hmem
  exact filename_of_groupByFile (Std.TreeMap.mem_toList_iff_getElem?_eq_some.1 hmem)

/-! ## Numbers of lines -/

namespace File

/-- The numbers of the lines are all of a kind. -/
def NumberedBy (f : File) (kind : Int → Prop) : Prop :=
  ∀ number l, f.line? number = some l → kind number

variable {f : File} {kind : Int → Prop}

theorem NumberedBy.modifyLine (h : f.NumberedBy kind) {number : Int} (hnumber : kind number)
    (change : Line → Line) : (f.modifyLine number change).NumberedBy kind := by
  intro number' l hl
  rw [line?_modifyLine] at hl
  split at hl
  · rename_i hsame
    exact hsame ▸ hnumber
  · exact h number' l hl

theorem NumberedBy.addScript (h : f.NumberedBy kind) {s : Script}
    (hs : ∀ ins ∈ s.instructions.toList, kind ins.sourceLine) :
    (f.addScript s).NumberedBy kind := by
  have hfilled : ∀ (code : List Instruction) (f : File), f.NumberedBy kind →
      (∀ ins ∈ code, kind ins.sourceLine) →
      (code.foldl (fun f ins => f.modifyLine ins.sourceLine (·.add (keyOf s ins) ins))
        f).NumberedBy kind := by
    intro code
    induction code with
    | nil => exact fun f hf _ => hf
    | cons ins rest ih =>
      intro f hf hcode
      obtain ⟨hins, hrest⟩ := List.forall_mem_cons.1 hcode
      exact ih _ (hf.modifyLine hins _) hrest
  unfold File.addScript File.markEnds
  split
  · rename_i first last hfirst hlast
    have hmem : ∀ ins, s.instructions[0]? = some ins ∨ s.instructions.back? = some ins →
        ins ∈ s.instructions.toList := by
      rintro ins (hins | hins)
      · exact Array.mem_toList_iff.2 (Array.mem_of_getElem? hins)
      · exact Array.mem_toList_iff.2 (Array.mem_of_back? hins)
    exact ((hfilled _ f h hs).modifyLine (hs first (hmem first (.inl hfirst))) _).modifyLine
      (hs last (hmem last (.inr hlast))) _
  · exact hfilled _ f h hs

theorem numberedBy_ofScripts {own : List Script}
    (h : ∀ s ∈ own, ∀ ins ∈ s.instructions.toList, kind ins.sourceLine) :
    (ofScripts name haltMnemonic own).NumberedBy kind := by
  have hfold : ∀ (own : List Script) (f : File), f.NumberedBy kind →
      (∀ s ∈ own, ∀ ins ∈ s.instructions.toList, kind ins.sourceLine) →
      (own.foldl addScript f).NumberedBy kind := by
    intro own
    induction own with
    | nil => exact fun f hf _ => hf
    | cons s rest ih =>
      intro f hf hown
      obtain ⟨hs, hrest⟩ := List.forall_mem_cons.1 hown
      exact ih _ (hf.addScript hs) hrest
  refine hfold own _ ?_ h
  intro number l hl
  simp [line?] at hl

end File

/-- What all lines are that instructions are on, all lines of files are. -/
theorem numberedBy_of_groupByFile {kind : Int → Prop}
    (hkind : ∀ s ∈ scripts, ∀ ins ∈ s.instructions.toList, kind ins.sourceLine) {f : File}
    (h : (groupByFile haltMnemonic scripts)[name]? = some f) : f.NumberedBy kind := by
  rw [getElem?_groupByFile] at h
  split at h
  · cases h
  · cases h
    exact File.numberedBy_ofScripts fun s hs => hkind s (List.mem_filter.1 hs).1

end BytecodeCoverage
