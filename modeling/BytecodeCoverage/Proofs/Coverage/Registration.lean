-- SUMMARY: Which instructions of some scripts are registered on the lines of their files.
import BytecodeCoverage.Proofs.Coverage.Grouping
import BytecodeCoverage.Proofs.Text.Joining
import BytecodeCoverage.Session

/-!
# Registration

A line registers an instruction under the name of its script and its address. Names are not unique,
and addresses need not be either, so a key may come up again, and then the instruction is left out.
What is registered on a line is thus the first instruction for each start line and address.
-/

namespace BytecodeCoverage

/-! ## Keys -/

/-- Within one file, a key tells the start line of the script and the address. -/
theorem keyOf_eq_iff {s s' : Script} (h : s.filename = s'.filename) (ins ins' : Instruction) :
    File.keyOf s ins = File.keyOf s' ins' ↔
      s.startLine = s'.startLine ∧ ins.address = ins'.address := by
  constructor
  · intro hkey
    have hlist := congrArg String.toList hkey
    simp only [File.keyOf, Script.name, h, String.toList_append, List.append_assoc,
      List.append_cancel_left_eq] at hlist
    obtain ⟨hline, haddress⟩ := (Text.append_cons_inj_of_first
      (Text.colon_not_mem_repr _) (Text.colon_not_mem_repr _)).1 hlist
    exact ⟨Int.repr_injective (String.toList_injective hline),
      Int.repr_injective (String.toList_injective haddress)⟩
  · rintro ⟨hline, haddress⟩
    rw [File.keyOf, File.keyOf, Script.name, Script.name, h, hline, haddress]

/-! ## Entries -/

/-- The entries of a line with another one, unless its key is there. -/
def addEntry (entries : List (String × Instruction)) (entry : String × Instruction) :
    List (String × Instruction) :=
  if entries.any (·.1 = entry.1) then entries else entries ++ [entry]

theorem entries_add (l : Line) (key : String) (ins : Instruction) :
    (l.add key ins).entries = addEntry l.entries (key, ins) := by
  unfold Line.add addEntry Line.hasKey
  split
  · rfl
  · rfl

namespace File

/-- What is registered on a line of a file. -/
def entriesAt (f : File) (number : Int) : List (String × Instruction) :=
  ((f.line? number).map (·.entries)).getD []

theorem entriesAt_modifyLine (f : File) (number number' : Int) (change : Line → Line)
    (update : List (String × Instruction) → List (String × Instruction))
    (h : ∀ l : Line, (change l).entries = update l.entries) :
    (f.modifyLine number change).entriesAt number' =
      if number = number' then update (f.entriesAt number') else f.entriesAt number' := by
  rw [entriesAt, line?_modifyLine]
  split
  · rename_i hnumber
    subst hnumber
    simp only [Option.map_some, Option.getD_some, h, entriesAt]
    cases f.line? number with
    | none => rfl
    | some l => rfl
  · rfl

theorem entriesAt_modifyLine_of_entries (f : File) (number number' : Int) (change : Line → Line)
    (h : ∀ l : Line, (change l).entries = l.entries) :
    (f.modifyLine number change).entriesAt number' = f.entriesAt number' := by
  rw [entriesAt_modifyLine f number number' change id h]
  exact ite_self _

theorem entriesAt_markEnds (f : File) (s : Script) (number : Int) :
    (f.markEnds s).entriesAt number = f.entriesAt number := by
  unfold markEnds
  split
  · rw [entriesAt_modifyLine_of_entries, entriesAt_modifyLine_of_entries]
    · exact fun _ => rfl
    · exact fun _ => rfl
  · rfl

end File

/-! ## Occurrences -/

/-- An instruction of a script. -/
structure Occurrence where
  script : Script
  ins : Instruction
  deriving Repr, DecidableEq

namespace Occurrence

/-- What is registered if the occurrence is. -/
def entry (o : Occurrence) : String × Instruction := (File.keyOf o.script o.ins, o.ins)

/-- What the key tells, on a line of a file. -/
def spot (o : Occurrence) : Int × Int := (o.script.startLine, o.ins.address)

/-- The line of a file that the occurrence is on. -/
def onLine (o : Occurrence) (file : String) (number : Int) : Bool :=
  o.script.filename = file && o.ins.sourceLine = number

end Occurrence

def Script.occurrences (s : Script) : List Occurrence := s.instructions.toList.map (⟨s, ·⟩)

/-- All instructions of some scripts, in their order. -/
def occurrences (scripts : List Script) : List Occurrence := scripts.flatMap (·.occurrences)

/-- Those on one line of a file. -/
def occurrencesAt (scripts : List Script) (file : String) (number : Int) : List Occurrence :=
  (occurrences scripts).filter (·.onLine file number)

theorem mem_occurrencesAt {scripts : List Script} {s : Script} {ins : Instruction}
    (hs : s ∈ scripts) (hins : ins ∈ s.instructions.toList) :
    ⟨s, ins⟩ ∈ occurrencesAt scripts s.filename ins.sourceLine := by
  refine List.mem_filter.2 ⟨List.mem_flatMap.2 ⟨s, hs, List.mem_map_of_mem hins⟩, ?_⟩
  simp [Occurrence.onLine]

theorem filename_of_mem_occurrences {s : Script} {o : Occurrence} (h : o ∈ s.occurrences) :
    o.script = s := by
  obtain ⟨ins, -, rfl⟩ := List.mem_map.1 h
  rfl

/-- What is on a line comes from the scripts under the name of the file. -/
theorem occurrencesAt_eq (scripts : List Script) (file : String) (number : Int) :
    occurrencesAt scripts file number =
      (ownScripts scripts file).flatMap fun s =>
        s.occurrences.filter (·.ins.sourceLine = number) := by
  induction scripts with
  | nil => rfl
  | cons s rest ih =>
    have hhere : s.occurrences.filter (·.onLine file number) =
        if s.filename = file then s.occurrences.filter (·.ins.sourceLine = number) else [] := by
      split
      · rename_i hfile
        refine List.filter_congr fun o ho => ?_
        rw [Occurrence.onLine, filename_of_mem_occurrences ho]
        simp [hfile]
      · rename_i hfile
        refine List.filter_eq_nil_iff.2 fun o ho => ?_
        rw [Occurrence.onLine, filename_of_mem_occurrences ho]
        simp [hfile]
    have hcons : occurrencesAt (s :: rest) file number =
        s.occurrences.filter (·.onLine file number) ++ occurrencesAt rest file number := by
      simp only [occurrencesAt, occurrences, List.flatMap_cons, List.filter_append]
    rw [hcons, hhere, ih]
    by_cases hfile : s.filename = file
    · simp [ownScripts, hfile]
    · simp [ownScripts, hfile]

/-! ## The entries of a file -/

namespace File

theorem entriesAt_addScript (f : File) (s : Script) (number : Int) :
    (f.addScript s).entriesAt number =
      ((s.occurrences.filter (·.ins.sourceLine = number)).map Occurrence.entry).foldl addEntry
        (f.entriesAt number) := by
  rw [addScript, entriesAt_markEnds, Script.occurrences]
  induction s.instructions.toList generalizing f with
  | nil => rfl
  | cons ins rest ih =>
    have hadd := entriesAt_modifyLine f ins.sourceLine number (·.add (keyOf s ins) ins)
      (addEntry · (keyOf s ins, ins)) fun l => entries_add l _ _
    rw [List.foldl_cons, ih, hadd, List.map_cons, List.filter_cons]
    by_cases hnumber : ins.sourceLine = number
    · simp [hnumber, Occurrence.entry]
    · simp [hnumber]

theorem entriesAt_foldl_addScript (own : List Script) (f : File) (number : Int) :
    (own.foldl addScript f).entriesAt number =
      ((own.flatMap fun s => s.occurrences.filter (·.ins.sourceLine = number)).map
        Occurrence.entry).foldl addEntry (f.entriesAt number) := by
  induction own generalizing f with
  | nil => rfl
  | cons s rest ih =>
    rw [List.foldl_cons, ih, entriesAt_addScript, List.flatMap_cons, List.map_append,
      List.foldl_append]

end File

/-- What is registered on a line of a file, of all the files. -/
def entriesOf (files : Std.TreeMap String File) (file : String) (number : Int) :
    List (String × Instruction) :=
  (files[file]?.map (·.entriesAt number)).getD []

theorem entriesOf_groupByFile (haltMnemonic : String) (scripts : List Script) (file : String)
    (number : Int) :
    entriesOf (groupByFile haltMnemonic scripts) file number =
      ((occurrencesAt scripts file number).map Occurrence.entry).foldl addEntry [] := by
  rw [entriesOf, getElem?_groupByFile, occurrencesAt_eq]
  split
  · rename_i hown
    rw [hown]
    rfl
  · have hfresh : File.entriesAt { filename := file, haltMnemonic } number = [] := by
      simp [File.entriesAt, File.line?]
    rw [Option.map_some, Option.getD_some, File.ofScripts, File.entriesAt_foldl_addScript, hfresh]

/-! ## First registrations -/

/-- Of some occurrences on a line, the first for each start line and address. -/
def firsts : List Occurrence → List Occurrence
  | [] => []
  | o :: rest => o :: (firsts rest).filter (·.spot ≠ o.spot)

theorem firsts_sublist (os : List Occurrence) : (firsts os).Sublist os := by
  induction os with
  | nil => exact List.Sublist.refl _
  | cons o rest ih => exact (List.filter_sublist.trans ih).cons_cons o

theorem pairwise_firsts (os : List Occurrence) :
    (firsts os).Pairwise fun a b => a.spot ≠ b.spot := by
  induction os with
  | nil => exact List.Pairwise.nil
  | cons o rest ih =>
    refine List.pairwise_cons.2 ⟨?_, ih.sublist List.filter_sublist⟩
    intro other hother
    exact Ne.symm (of_decide_eq_true (List.mem_filter.1 hother).2)

theorem firsts_eq_self_iff {os : List Occurrence} :
    firsts os = os ↔ os.Pairwise fun a b => a.spot ≠ b.spot := by
  constructor
  · intro h
    rw [← h]
    exact pairwise_firsts os
  · intro h
    induction os with
    | nil => rfl
    | cons o rest ih =>
      obtain ⟨ho, hrest⟩ := List.pairwise_cons.1 h
      rw [firsts, ih hrest, List.filter_eq_self.2]
      intro other hother
      exact decide_eq_true (Ne.symm (ho other hother))

theorem addEntry_map_entry {file : String} {kept : List Occurrence} {o : Occurrence}
    (hkept : ∀ k ∈ kept, k.script.filename = file) (ho : o.script.filename = file) :
    addEntry (kept.map Occurrence.entry) o.entry =
      if o.spot ∈ kept.map (·.spot) then kept.map Occurrence.entry
      else (kept ++ [o]).map Occurrence.entry := by
  have hany : (kept.map Occurrence.entry).any (·.1 = o.entry.1) ↔ o.spot ∈ kept.map (·.spot) := by
    rw [List.any_map, List.any_eq_true, List.mem_map]
    refine exists_congr fun k => and_congr_right fun hk => ?_
    have hkey := keyOf_eq_iff ((hkept k hk).trans ho.symm) k.ins o.ins
    simp only [Function.comp_apply, decide_eq_true_eq, Occurrence.spot, Prod.mk.injEq]
    exact hkey
  rw [addEntry]
  simp only [hany, List.map_append, List.map_singleton]

/-- By induction on the occurrences that are still to come. An entry is left out if its key has
been kept before, and else it is one of the kept from then on. -/
theorem foldl_addEntry {file : String} (os kept : List Occurrence)
    (hos : ∀ o ∈ os, o.script.filename = file) (hkept : ∀ o ∈ kept, o.script.filename = file) :
    (os.map Occurrence.entry).foldl addEntry (kept.map Occurrence.entry) =
      (kept ++ (firsts os).filter fun o => o.spot ∉ kept.map (·.spot)).map Occurrence.entry := by
  induction os generalizing kept with
  | nil => simp [firsts]
  | cons o rest ih =>
    have ho := hos o (.head _)
    have hrest : ∀ other ∈ rest, other.script.filename = file := fun other hother =>
      hos other (.tail _ hother)
    rw [List.map_cons, List.foldl_cons, addEntry_map_entry hkept ho, firsts, List.filter_cons]
    split
    · rename_i hspot
      -- Its key has been kept, and so have the keys that it would keep out.
      rw [ih kept hrest hkept, if_neg (by simpa using hspot), List.filter_filter]
      congr 2
      refine List.filter_congr fun other _ => ?_
      have hne : other.spot ∉ kept.map (·.spot) → other.spot ≠ o.spot := by
        rintro hother heq
        exact hother (heq ▸ hspot)
      by_cases hother : other.spot ∈ kept.map (·.spot)
      · simp [hother]
      · simp [hother, hne hother]
    · rename_i hspot
      have hkept' : ∀ k ∈ kept ++ [o], k.script.filename = file := by
        intro k hk
        rcases List.mem_append.1 hk with hk | hk
        · exact hkept k hk
        · rw [List.mem_singleton.1 hk]
          exact ho
      rw [ih (kept ++ [o]) hrest hkept', if_pos (by simpa using hspot), List.filter_filter,
        List.append_assoc]
      refine congrArg (fun tail => (kept ++ o :: tail).map Occurrence.entry) ?_
      refine List.filter_congr fun other _ => ?_
      by_cases hother : other.spot = o.spot
      · simp [hother]
      · simp [hother]

/-- What is registered on a line, told without the keys. -/
theorem entriesOf_eq_firsts (haltMnemonic : String) (scripts : List Script) (file : String)
    (number : Int) :
    entriesOf (groupByFile haltMnemonic scripts) file number =
      (firsts (occurrencesAt scripts file number)).map Occurrence.entry := by
  have hfile : ∀ o ∈ occurrencesAt scripts file number, o.script.filename = file := by
    intro o ho
    have hline := (List.mem_filter.1 ho).2
    rw [Occurrence.onLine, Bool.and_eq_true] at hline
    exact of_decide_eq_true hline.1
  have hall := foldl_addEntry (occurrencesAt scripts file number) [] hfile nofun
  rw [entriesOf_groupByFile]
  simpa using hall

/-! ## Nothing left out -/

/-- The script name and the address that a key is made of, and the line of the registration. -/
def Occurrence.place (o : Occurrence) : String × Int × Int × Int :=
  (o.script.filename, o.script.startLine, o.ins.address, o.ins.sourceLine)

theorem nodup_places_iff {scripts : List Script} :
    ((occurrences scripts).map Occurrence.place).Nodup ↔
      ∀ file number, (occurrencesAt scripts file number).Pairwise fun a b => a.spot ≠ b.spot := by
  rw [List.Nodup, List.pairwise_map]
  constructor
  · intro h file number
    refine List.pairwise_filter.2 (h.imp ?_)
    intro a b hplace ha hb hspot
    simp only [Occurrence.onLine, Bool.and_eq_true, decide_eq_true_eq] at ha hb
    obtain ⟨hline, haddress⟩ := Prod.mk.inj hspot
    refine hplace ?_
    simp only [Occurrence.place, ha, hb, hline, haddress]
  · intro h
    refine List.pairwise_iff_getElem.2 ?_
    intro i j hi hj hij hplace
    simp only [Occurrence.place, Prod.mk.injEq] at hplace
    obtain ⟨hfile, hline, haddress, hnumber⟩ := hplace
    have hpair := List.pairwise_filter.1 (h (occurrences scripts)[i].script.filename
      (occurrences scripts)[i].ins.sourceLine)
    -- Two occurrences in one place are on one line, and that line tells them apart.
    refine List.pairwise_iff_getElem.1 hpair i j hi hj hij ?_ ?_ ?_
    · simp [Occurrence.onLine]
    · simp [Occurrence.onLine, hfile, hnumber]
    · exact Prod.ext hline haddress

/-- The files of a text that is a whole trace. -/
def filesOfText (g : Grammar) (text : String) : Except Fault (Std.TreeMap String File) :=
  (scriptsOf g text).map (groupByFile g.dialect.haltMnemonic)

/-- On each line, the first instruction for each start line and address is registered. So all
instructions of a text are registered just if no two of them are on one line at one address of
scripts of one name. -/
theorem entriesOf_filesOfText {g : Grammar} {text : String} {scripts : List Script}
    (h : scriptsOf g text = .ok scripts) :
    ∃ files, filesOfText g text = .ok files ∧
      (∀ s ∈ scripts, ∀ ins ∈ s.instructions.toList,
        ⟨s, ins⟩ ∈ occurrencesAt scripts s.filename ins.sourceLine) ∧
      (∀ file number, entriesOf files file number =
        (firsts (occurrencesAt scripts file number)).map Occurrence.entry) ∧
      ((∀ file number, entriesOf files file number =
        (occurrencesAt scripts file number).map Occurrence.entry) ↔
        ((occurrences scripts).map Occurrence.place).Nodup) := by
  have hfiles : filesOfText g text = .ok (groupByFile g.dialect.haltMnemonic scripts) := by
    rw [filesOfText, h]
    rfl
  refine ⟨_, hfiles, fun s hs ins hins => mem_occurrencesAt hs hins,
    entriesOf_eq_firsts _ scripts, ?_⟩
  rw [nodup_places_iff]
  refine forall_congr' fun file => forall_congr' fun number => ?_
  rw [entriesOf_eq_firsts, ← firsts_eq_self_iff]
  constructor
  · intro hentries
    have hlength := congrArg List.length hentries
    rw [List.length_map, List.length_map] at hlength
    exact (firsts_sublist _).eq_of_length hlength
  · intro hfirsts
    rw [hfirsts]

/-- Two functions that start on one line, each with an instruction at address 0. -/
def neighbours : String :=
  "--- SCRIPT a.js:1 ---\n0:3/0/0 x 1 return\n--- END SCRIPT ---\n" ++
    "--- SCRIPT a.js:1 ---\n0:0/0/0 x 1 stop\n--- END SCRIPT ---"

/-- The same with the second function further down. -/
def apart : String :=
  "--- SCRIPT a.js:1 ---\n0:3/0/0 x 1 return\n--- END SCRIPT ---\n" ++
    "--- SCRIPT a.js:2 ---\n0:0/0/0 x 1 stop\n--- END SCRIPT ---"

theorem entriesOf_apart :
    ∃ scripts files, scriptsOf {} apart = .ok scripts ∧ filesOfText {} apart = .ok files ∧
      ∀ file number, entriesOf files file number =
        (occurrencesAt scripts file number).map Occurrence.entry := by
  have hplaces : (scriptsOf {} apart).toOption.map
      (fun scripts => decide ((occurrences scripts).map Occurrence.place).Nodup) = some true := by
    decide +kernel
  cases h : scriptsOf {} apart with
  | error fault =>
    rw [h] at hplaces
    cases hplaces
  | ok scripts =>
    rw [h] at hplaces
    obtain ⟨files, hfiles, -, -, hall⟩ := entriesOf_filesOfText h
    exact ⟨scripts, files, rfl, hfiles, hall.2 (of_decide_eq_true (Option.some.inj hplaces))⟩

/-- An instruction that no entry of its line holds. -/
def isLost (files : Std.TreeMap String File) (s : Script) (ins : Instruction) : Bool :=
  (entriesOf files s.filename ins.sourceLine).all (·.2 ≠ ins)

theorem entriesOf_neighbours :
    ∃ scripts files, scriptsOf {} neighbours = .ok scripts ∧
      filesOfText {} neighbours = .ok files ∧
      ∃ s ∈ scripts, ∃ ins ∈ s.instructions.toList, isLost files s ins := by
  have hlost : (scriptsOf {} neighbours).toOption.any (fun scripts =>
      scripts.any fun s => s.instructions.toList.any
        (isLost (groupByFile ({} : Grammar).dialect.haltMnemonic scripts) s)) = true := by
    decide +kernel
  unfold filesOfText
  cases h : scriptsOf {} neighbours with
  | error fault =>
    rw [h] at hlost
    cases hlost
  | ok scripts =>
    rw [h] at hlost
    obtain ⟨s, hs, hcode⟩ := List.any_eq_true.1 hlost
    obtain ⟨ins, hins, hnone⟩ := List.any_eq_true.1 hcode
    exact ⟨scripts, _, rfl, rfl, s, hs, ins, hins, hnone⟩

end BytecodeCoverage
