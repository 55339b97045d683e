-- SUMMARY: The files of some scripts, line by line: which lines there are and what is on them.
import BytecodeCoverage.Proofs.Coverage.Registration

/-!
# The construction of files

A script touches the lines of its file: it registers each instruction on a line, and then it marks
the line of the first and the line of the last. There is a line just if it was touched, and what it
is in the end is told by its touches. Marks stay once they are set, and of two registrations under
one key the first stands.
-/

namespace BytecodeCoverage

-- ---------------------------------------------------------------------------
-- Touches
-- ---------------------------------------------------------------------------

/-- What a script does to a line of its file. -/
inductive Touch where
  | register (key : String) (ins : Instruction)
  | start
  | finish
  deriving Repr, DecidableEq

namespace Touch

def apply (l : Line) : Touch → Line
  | .register key ins => l.add key ins
  | .start => { l with startsFunction := true }
  | .finish => { l with endsFunction := true }

/-- Touches add entries to a line and set its marks. They change nothing else. -/
theorem exists_foldl_apply (touches : List Touch) (l : Line) :
    ∃ entries, touches.foldl apply l =
      { l with
        entries
        startsFunction := l.startsFunction || touches.contains .start
        endsFunction := l.endsFunction || touches.contains .finish } := by
  induction touches generalizing l with
  | nil => exact ⟨l.entries, by simp⟩
  | cons touch rest ih =>
    obtain ⟨entries, hrest⟩ := ih (apply l touch)
    refine ⟨entries, hrest.trans ?_⟩
    cases touch with
    | register key ins =>
      have hadd : l.add key ins = { l with entries := (l.add key ins).entries } := by
        rw [Line.add]
        split <;> rfl
      rw [apply, hadd]
      simp
    | start => simp [apply]
    | finish => simp [apply]

end Touch

/-- What a script does to its file, line by line. -/
def Script.touches (s : Script) : List (Int × Touch) :=
  s.instructions.toList.map (fun ins => (ins.sourceLine, .register (File.keyOf s ins) ins)) ++
    ((s.instructions[0]?.map fun ins => (ins.sourceLine, .start)).toList ++
      (s.instructions.back?.map fun ins => (ins.sourceLine, .finish)).toList)

/-- What some scripts do to a line of the file that they share. -/
def touchesAt (own : List Script) (number : Int) : List Touch :=
  ((own.flatMap (·.touches)).filter (·.1 = number)).map (·.2)

section Members

variable {own : List Script} {number : Int}

theorem mem_touchesAt {touch : Touch} :
    touch ∈ touchesAt own number ↔ ∃ s ∈ own, (number, touch) ∈ s.touches := by
  simp only [touchesAt, List.mem_map, List.mem_filter, List.mem_flatMap, decide_eq_true_eq]
  constructor
  · rintro ⟨⟨n, t⟩, ⟨⟨s, hs, hmem⟩, rfl⟩, rfl⟩
    exact ⟨s, hs, hmem⟩
  · rintro ⟨s, hs, hmem⟩
    exact ⟨(number, touch), ⟨⟨s, hs, hmem⟩, rfl⟩, rfl⟩

theorem start_mem_touchesAt : .start ∈ touchesAt own number ↔
    ∃ s ∈ own, ∃ first, s.instructions[0]? = some first ∧ first.sourceLine = number := by
  simp [mem_touchesAt, Script.touches]

theorem finish_mem_touchesAt : .finish ∈ touchesAt own number ↔
    ∃ s ∈ own, ∃ last, s.instructions.back? = some last ∧ last.sourceLine = number := by
  simp [mem_touchesAt, Script.touches]

/-- A line that is marked is one on which an instruction is registered. -/
theorem touchesAt_ne_nil : touchesAt own number ≠ [] ↔
    ∃ s ∈ own, ∃ ins ∈ s.instructions, ins.sourceLine = number := by
  constructor
  · intro hne
    obtain ⟨touch, htouch⟩ := List.exists_mem_of_ne_nil _ hne
    obtain ⟨s, hs, hmem⟩ := mem_touchesAt.1 htouch
    refine ⟨s, hs, ?_⟩
    simp only [Script.touches, List.mem_append, List.mem_map, Option.mem_toList,
      Option.map_eq_some_iff, Prod.mk.injEq] at hmem
    rcases hmem with ⟨ins, hins, hline, -⟩ | ⟨ins, hins, hline, -⟩ | ⟨ins, hins, hline, -⟩
    · exact ⟨ins, Array.mem_toList_iff.1 hins, hline⟩
    · exact ⟨ins, Array.mem_of_getElem? hins, hline⟩
    · exact ⟨ins, Array.mem_of_back? hins, hline⟩
  · rintro ⟨s, hs, ins, hins, rfl⟩
    have hmem : (ins.sourceLine, Touch.register (File.keyOf s ins) ins) ∈ s.touches :=
      List.mem_append_left _ (List.mem_map.2 ⟨ins, Array.mem_toList_iff.2 hins, rfl⟩)
    exact List.ne_nil_of_mem (mem_touchesAt.2 ⟨s, hs, hmem⟩)

end Members

-- ---------------------------------------------------------------------------
-- Files
-- ---------------------------------------------------------------------------

namespace File

/-- The file after a touch of one of its lines. -/
def touch (f : File) (touched : Int × Touch) : File :=
  f.modifyLine touched.1 (Touch.apply · touched.2)

theorem addScript_eq (f : File) (s : Script) : f.addScript s = s.touches.foldl touch f := by
  rw [addScript, Script.touches, List.foldl_append, List.foldl_append, List.foldl_map, markEnds]
  cases hfirst : s.instructions[0]? with
  | none =>
    have hempty : s.instructions = #[] := by simpa using hfirst
    simp [hempty]
  | some first =>
    cases hlast : s.instructions.back? with
    | none =>
      rw [Array.back?_eq_none_iff.1 hlast] at hfirst
      cases hfirst
    | some last => rfl

/-- A line that is not there when it is touched comes into being. -/
theorem line?_foldl_touch (touches : List (Int × Touch)) (f : File) (number : Int) :
    (touches.foldl touch f).line? number =
      let here := (touches.filter (·.1 = number)).map (·.2)
      if here = [] then f.line? number
      else some (here.foldl Touch.apply
        ((f.line? number).getD { number, haltMnemonic := f.haltMnemonic })) := by
  induction touches generalizing f with
  | nil => rfl
  | cons touched rest ih =>
    have hfirst := f.line?_modifyLine touched.1 number (Touch.apply · touched.2)
    rw [List.foldl_cons, ih, touch, hfirst]
    by_cases hnumber : touched.1 = number
    · subst hnumber
      simp only [if_true, List.filter_cons, decide_true, List.map_cons, reduceCtorEq, if_false,
        List.foldl_cons, Option.getD_some]
      split
      · rename_i hnone
        rw [hnone]
        rfl
      · rfl
    · simp only [hnumber, if_false, List.filter_cons, decide_false, Bool.false_eq_true]
      rfl

theorem line?_ofScripts (name haltMnemonic : String) (own : List Script) (number : Int) :
    (ofScripts name haltMnemonic own).line? number =
      if touchesAt own number = [] then none
      else some ((touchesAt own number).foldl Touch.apply { number, haltMnemonic }) := by
  have hfold : ofScripts name haltMnemonic own =
      (own.flatMap (·.touches)).foldl touch { filename := name, haltMnemonic } := by
    rw [ofScripts, List.foldl_flatMap]
    exact List.foldl_ext _ _ _ fun f s _ => f.addScript_eq s
  have hfresh : line? { filename := name, haltMnemonic } number = none := by simp [line?]
  rw [hfold, line?_foldl_touch, hfresh]
  rfl

end File

-- ---------------------------------------------------------------------------
-- Entries
-- ---------------------------------------------------------------------------

section Entries

variable (kept entries : List (String × Instruction))

/-- Each key is there once, at the place where it came first. -/
theorem keys_foldl_addEntry :
    (entries.foldl addEntry kept).map (·.1) =
      kept.map (·.1) ++ ((entries.map (·.1)).filter (· ∉ kept.map (·.1))).eraseDups := by
  induction entries generalizing kept with
  | nil => simp
  | cons entry rest ih =>
    rw [List.foldl_cons, ih, addEntry, List.map_cons, List.filter_cons]
    by_cases hkey : entry.1 ∈ kept.map (·.1)
    · have hany : kept.any (·.1 = entry.1) := by simpa using hkey
      rw [if_pos hany, if_neg (by simpa using hkey)]
    · have hany : ¬ kept.any (·.1 = entry.1) := by simpa using hkey
      rw [if_neg hany, if_pos (by simpa using hkey), List.eraseDups_cons, List.filter_filter,
        List.map_append, List.append_assoc]
      refine congrArg (fun keys => kept.map (·.1) ++ entry.1 :: List.eraseDups keys) ?_
      refine List.filter_congr fun key _ => ?_
      simp only [List.map_cons, List.map_nil, List.mem_append, List.mem_singleton, not_or,
        Bool.decide_and, Bool.and_comm]
      by_cases hsame : key = entry.1
      · simp [hsame]
      · simp [hsame]

/-- A key stands for what it was first registered with. -/
theorem find?_foldl_addEntry (key : String) :
    (entries.foldl addEntry kept).find? (·.1 = key) = (kept ++ entries).find? (·.1 = key) := by
  induction entries generalizing kept with
  | nil => rw [List.append_nil]; rfl
  | cons entry rest ih =>
    rw [List.foldl_cons, ih, addEntry]
    split
    · rename_i hany
      rw [List.find?_append, List.find?_append]
      by_cases hkey : entry.1 = key
      · subst hkey
        rw [Option.or_of_isSome (by simpa using hany), Option.or_of_isSome (by simpa using hany)]
      · rw [List.find?_cons_of_neg (by simpa using hkey)]
    · rw [List.append_assoc]
      rfl

end Entries

/-- A line is as the scripts under the name of its file make it. Of the instructions that are on it,
each key is there at its first place, with its first instruction. -/
structure Line.MadeBy (scripts : List Script) (name haltMnemonic : String) (number : Int)
    (l : Line) : Prop where
  number_eq : l.number = number
  haltMnemonic_eq : l.haltMnemonic = haltMnemonic
  unasked : l.settled = none
  keys : l.keys =
    ((occurrencesAt scripts name number).map fun o => File.keyOf o.script o.ins).eraseDups
  bound : ∀ key, (l.entries.find? (·.1 = key)).map (·.2) =
    ((occurrencesAt scripts name number).find? fun o => File.keyOf o.script o.ins = key).map (·.ins)
  starts : l.startsFunction ↔ ∃ s ∈ scripts, s.filename = name ∧
    ∃ first, s.instructions[0]? = some first ∧ first.sourceLine = number
  ends : l.endsFunction ↔ ∃ s ∈ scripts, s.filename = name ∧
    ∃ last, s.instructions.back? = some last ∧ last.sourceLine = number

theorem mem_ownScripts {scripts : List Script} {name : String} {s : Script} :
    s ∈ ownScripts scripts name ↔ s ∈ scripts ∧ s.filename = name := by
  rw [ownScripts, List.mem_filter, decide_eq_true_eq]

section Scripts

variable {haltMnemonic name : String} {scripts : List Script} {f : File}

theorem ofScripts_of_groupByFile (h : (groupByFile haltMnemonic scripts)[name]? = some f) :
    f = File.ofScripts name haltMnemonic (ownScripts scripts name) := by
  rw [getElem?_groupByFile] at h
  split at h
  · cases h
  · exact (Option.some.inj h).symm

theorem line?_isSome_iff (h : (groupByFile haltMnemonic scripts)[name]? = some f) (number : Int) :
    (f.line? number).isSome ↔ ∃ s ∈ scripts, s.filename = name ∧
      ∃ ins ∈ s.instructions, ins.sourceLine = number := by
  have htouched : (f.line? number).isSome ↔ touchesAt (ownScripts scripts name) number ≠ [] := by
    rw [ofScripts_of_groupByFile h, File.line?_ofScripts]
    split
    · rename_i hnone
      simp [hnone]
    · rename_i hsome
      simp [hsome]
  rw [htouched, touchesAt_ne_nil]
  simp only [mem_ownScripts, and_assoc]

theorem entries_of_line? (h : (groupByFile haltMnemonic scripts)[name]? = some f) {number : Int}
    {l : Line} (hl : f.line? number = some l) :
    l.entries = ((occurrencesAt scripts name number).map Occurrence.entry).foldl addEntry [] := by
  rw [← entriesOf_groupByFile haltMnemonic, entriesOf, h]
  simp [File.entriesAt, hl]

theorem madeBy_of_line? (h : (groupByFile haltMnemonic scripts)[name]? = some f) {number : Int}
    {l : Line} (hl : f.line? number = some l) : l.MadeBy scripts name haltMnemonic number := by
  have hentries := entries_of_line? h hl
  have hline := hl
  rw [ofScripts_of_groupByFile h, File.line?_ofScripts] at hline
  split at hline
  · cases hline
  obtain ⟨entries, hfold⟩ := Touch.exists_foldl_apply (touchesAt (ownScripts scripts name) number)
    { number, haltMnemonic }
  rw [hfold, Option.some.injEq] at hline
  refine ⟨?_, ?_, ?_, ?_, ?_, ?_, ?_⟩
  · rw [← hline]
  · rw [← hline]
  · rw [← hline]
  · rw [Line.keys, hentries, keys_foldl_addEntry, List.map_map]
    simp [Occurrence.entry, Function.comp_def]
  · intro key
    rw [hentries, find?_foldl_addEntry, List.nil_append, List.find?_map, Option.map_map]
    rfl
  · rw [← hline]
    simp [start_mem_touchesAt, mem_ownScripts, and_assoc]
  · rw [← hline]
    simp [finish_mem_touchesAt, mem_ownScripts, and_assoc]

/-- Scripts are grouped just if the keys of all instructions can be written, and fail for no other
reason. There is a file for each name that a script has. A file has a line for each number that an
instruction of a script under its name has, and each line is as these scripts make it. Within a
file, keys tell start lines and addresses apart. -/
theorem groupScripts_made (haltMnemonic : String) (scripts : List Script) :
    ((∃ files, groupScripts haltMnemonic scripts = .ok files) ↔
      ∀ s ∈ scripts, ∀ ins ∈ s.instructions,
        Numeral.isWritable s.startLine ∧ Numeral.isWritable ins.address) ∧
    (∀ fault, groupScripts haltMnemonic scripts = .error fault → fault = .overlongNumber) ∧
    (∀ files, groupScripts haltMnemonic scripts = .ok files →
      (∀ name, name ∈ files ↔ ∃ s ∈ scripts, s.filename = name) ∧
      ∀ name f, files[name]? = some f → f.filename = name ∧
        ∀ number,
          ((f.line? number).isSome ↔ ∃ s ∈ scripts, s.filename = name ∧
            ∃ ins ∈ s.instructions, ins.sourceLine = number) ∧
          ∀ l, f.line? number = some l → l.MadeBy scripts name haltMnemonic number) ∧
    ∀ s s' : Script, s.filename = s'.filename → ∀ ins ins' : Instruction,
      File.keyOf s ins = File.keyOf s' ins' ↔
        (s.startLine, ins.address) = (s'.startLine, ins'.address) := by
  refine ⟨?_, fun fault => fault_groupScripts, fun files hfiles => ?_,
    fun s s' hname ins ins' => ?_⟩
  · simp only [groupScripts_eq_ok_iff, Script.keysAreWritable_iff, exists_and_left, exists_eq,
      and_true]
  · obtain ⟨-, rfl⟩ := groupScripts_eq_ok_iff.1 hfiles
    refine ⟨fun name => mem_groupByFile_iff, fun name f hf => ?_⟩
    refine ⟨filename_of_groupByFile hf, fun number => ?_⟩
    exact ⟨line?_isSome_iff hf number, fun l hl => madeBy_of_line? hf hl⟩
  · rw [keyOf_eq_iff hname, Prod.mk.injEq]

end Scripts

end BytecodeCoverage
