-- SUMMARY: A text whose numbers can be converted fails for nothing but a lost jump.
import BytecodeCoverage.Proofs.Script.Conversion
import BytecodeCoverage.Proofs.Script.Unresolved
import BytecodeCoverage.Proofs.Session.Texts

/-!
# Numbers within the limit

The numbers that reading a record deals with are those that stand in it, the lines that its places
are moved to, and the addresses that its jumps go to. Where none of them is too long, the record is
built and signed wherever it is moved, and whatever goes wrong in the search can be told. So all
that is left to go wrong is a jump to an address that the script does not have.
-/

namespace BytecodeCoverage

open Text

/-! ## Places -/

/-- Note the place that a row names under the file that is traced by then, latest first. -/
def notePlace (seen : String × List (String × Int)) (row : Row) : String × List (String × Int) :=
  match row with
  | .header file line => (file, (file, (line : Int)) :: seen.2)
  | .data _ sourceLine _ _ => (seen.1, (seen.1, (sourceLine : Int)) :: seen.2)
  | _ => seen

/-- The rows of the lines that can be read. -/
def rowsOf (dialect : Dialect) (lines : List String) : List Row :=
  lines.filterMap fun line => (Row.read dialect line).toOption

theorem tracedCoordinates_eq (dialect : Dialect) (lines : List String) :
    tracedCoordinates dialect lines =
      ((rowsOf dialect lines).foldl notePlace ("", [])).2.reverse := by
  have hstep : (fun (seen : String × List (String × Int)) (row : Row) =>
      match row with
      | .header file line => (file, (file, (line : Int)) :: seen.2)
      | .data _ sourceLine _ _ => (seen.1, (seen.1, (sourceLine : Int)) :: seen.2)
      | _ => (seen.1, seen.2)) = notePlace := by
    funext seen row
    cases row <;> rfl
  rw [← hstep]
  rfl

/-- A place that has been noted stays. -/
theorem mem_foldl_notePlace {rows : List Row} {seen : String × List (String × Int)}
    {place : String × Int} (h : place ∈ seen.2) : place ∈ (rows.foldl notePlace seen).2 := by
  induction rows generalizing seen with
  | nil => exact h
  | cons row rest ih =>
    refine ih ?_
    cases row with
    | header file line => exact .tail _ h
    | data address sourceLine count text => exact .tail _ h
    | finish => exact h
    | entry => exact h
    | continuation text => exact h
    | noise => exact h

/-! ## Drafts -/

/-- The numbers of the script can be written, and those in its instructions' texts be read. -/
structure Script.IsReadable (s : Script) : Prop where
  writable : s.isWritable
  texts : ∀ ins ∈ s.instructions.toList, HasReadableRuns ins.text.toList

namespace Draft

variable {relocate : Relocation} {d d' : Draft} {row : Row}

theorem tracedFile_addRow (h : d.addRow relocate row = .ok d') (found : List (String × Int)) :
    d'.tracedFile = (notePlace (d.tracedFile, found) row).1 := by
  cases row with
  | continuation text =>
    simp only [addRow] at h
    split at h
    · split at h
      · cases h
        rfl
      · cases h
    · cases h
      rfl
  | header file line => cases h; rfl
  | data address sourceLine count text => cases h; rfl
  | finish => cases h; rfl
  | entry => cases h; rfl
  | noise => cases h; rfl

/-- A row keeps a script readable if the place that it names is moved to a line that can be
written. -/
theorem isReadable_addRow {line : List Char} (hd : d.script.IsReadable) (hrow : row.IsPartOf line)
    (hruns : HasReadableRuns line)
    (hplace : ∀ place ∈ (notePlace (d.tracedFile, []) row).2,
      Numeral.isWritable (relocate place.1 place.2).2)
    (h : d.addRow relocate row = .ok d') : d'.script.IsReadable := by
  obtain ⟨hname, hcode⟩ := Script.isWritable_iff.1 hd.writable
  have hreadable := hrow.isReadable hruns
  refine ⟨Script.isWritable_iff.2 ⟨?_, ?_⟩, ?_⟩
  · rcases place_addRow h with hkept | ⟨file, startLine, rfl, hmoved⟩
    · have hline : d'.script.startLine = d.script.startLine := congrArg Prod.snd hkept
      rw [Script.nameIsWritable, hline]
      exact hname
    · have hline : d'.script.startLine = (relocate file startLine).2 := congrArg Prod.snd hmoved
      rw [Script.nameIsWritable, hline]
      exact hplace (file, (startLine : Int)) (List.mem_singleton.2 rfl)
  · intro ins hins
    rcases mem_addRow h hins with hold | ⟨address, sourceLine, count, text, rfl, rfl⟩ |
      ⟨text, -, old, hold, rfl⟩
    · exact hcode ins hold
    · obtain ⟨⟨run, -, hread⟩, -⟩ := hrow
      have hmoved := hplace (d.tracedFile, (sourceLine : Int)) (List.mem_singleton.2 rfl)
      exact Bool.and_eq_true_iff.2 ⟨Numeral.isWritable_of_read hread, hmoved⟩
    · exact hcode old hold
  · intro ins hins
    rcases mem_addRow h hins with hold | ⟨address, sourceLine, count, text, rfl, rfl⟩ |
      ⟨text, rfl, old, hold, rfl⟩
    · exact hd.texts ins hold
    · exact hreadable
    · -- The tab that a continuation starts with parts its digits from those before it.
      obtain ⟨htext, htab⟩ := hreadable
      obtain ⟨rest, hrest⟩ := List.head?_eq_some_iff.1 htab
      rw [hrest] at htext
      rw [String.toList_append, hrest]
      exact (hd.texts old hold).append_cons (by decide) htext

/-- By induction on the lines: each of them is read and taken. -/
theorem exists_addLines_of_places (dialect : Dialect) {lines : List String}
    {found : List (String × Int)} (hlines : ∀ line ∈ lines, HasReadableRuns line.toList)
    (hplaces : ∀ place ∈ ((rowsOf dialect lines).foldl notePlace (d.tracedFile, found)).2,
      Numeral.isWritable (relocate place.1 place.2).2)
    (hd : d.script.IsReadable) :
    ∃ d', d.addLines dialect relocate lines = .ok d' ∧ d'.script.IsReadable := by
  induction lines generalizing d found with
  | nil => exact ⟨d, rfl, hd⟩
  | cons line rest ih =>
    obtain ⟨hline, hrest⟩ := List.forall_mem_cons.1 hlines
    obtain ⟨row, hread⟩ := Row.exists_read dialect hline
    have hname : d.script.nameIsWritable := (Script.isWritable_iff.1 hd.writable).1
    obtain ⟨next, hnext⟩ : ∃ next, d.addRow relocate row = .ok next :=
      exists_addRow_of_writable hname row
    have hrows : rowsOf dialect (line :: rest) = row :: rowsOf dialect rest := by
      rw [rowsOf, List.filterMap_cons_some (by rw [hread]; rfl)]
      rfl
    rw [hrows, List.foldl_cons] at hplaces
    have hhere : ∀ place ∈ (notePlace (d.tracedFile, []) row).2,
        Numeral.isWritable (relocate place.1 place.2).2 := by
      intro place hplace
      refine hplaces place (mem_foldl_notePlace ?_)
      cases row with
      | header file startLine => exact List.mem_cons.2 (.inl (List.mem_singleton.1 hplace))
      | data address sourceLine count text =>
        exact List.mem_cons.2 (.inl (List.mem_singleton.1 hplace))
      | finish => cases hplace
      | entry => cases hplace
      | continuation text => cases hplace
      | noise => cases hplace
    have hseen : notePlace (d.tracedFile, found) row =
        (next.tracedFile, (notePlace (d.tracedFile, found) row).2) :=
      Prod.ext (tracedFile_addRow hnext found).symm rfl
    rw [hseen] at hplaces
    obtain ⟨d', hd', hreadable⟩ := ih hrest hplaces
      (isReadable_addRow hd (Row.isPartOf_of_read hread) hline hhere hnext)
    exact ⟨d', (addLines_cons hread hnext rest).trans hd', hreadable⟩

end Draft

/-! ## Records -/

/-- No number is too long that reading the record deals with. -/
structure Grammar.Converts (g : Grammar) (record : List String) : Prop where
  /-- Those that stand in it. -/
  runs : ∀ line ∈ record, HasReadableRuns line.toList
  /-- The lines that its places are moved to. -/
  places : ∀ place ∈ tracedCoordinates g.dialect record,
    Numeral.isWritable (g.relocate place.1 place.2).2
  /-- The addresses that its jumps go to. -/
  targets : ∀ s, Script.ofRecord g.dialect g.relocate record = .ok s →
    ∀ ins ∈ s.instructions.toList, ∀ target ∈ ins.targets, Numeral.isWritable target

theorem Grammar.Converts.exists_ofRecord {g : Grammar} {record : List String}
    (h : g.Converts record) :
    ∃ s, Script.ofRecord g.dialect g.relocate record = .ok s ∧ s.IsReadable := by
  have hnew : ({} : Draft).script.IsReadable := ⟨by decide +kernel, nofun⟩
  have hplaces : ∀ place ∈ ((rowsOf g.dialect record).foldl notePlace ("", [])).2,
      Numeral.isWritable (g.relocate place.1 place.2).2 := by
    intro place hplace
    refine h.places place ?_
    rw [tracedCoordinates_eq]
    exact List.mem_reverse.2 hplace
  obtain ⟨d, hd, hreadable⟩ := Draft.exists_addLines_of_places g.dialect h.runs hplaces hnew
  exact ⟨d.script, by rw [Script.ofRecord, hd]; rfl, hreadable⟩

namespace Script

variable {s : Script} {ins : Instruction} {e : Fault}

theorem isRunOf_of_mem_operands {d : SignedDigits} (h : d ∈ ins.operands) :
    IsRunOf d.digits ins.text.toList := by
  have hbranch : d ∈ (branchDigits? ins.text.toList).toList.map (⟨false, ·⟩) →
      IsRunOf d.digits ins.text.toList := by
    intro h
    obtain ⟨digits, hdigits, rfl⟩ := List.mem_map.1 h
    exact isRunOf_of_branchDigits? (Option.mem_toList.1 hdigits)
  unfold Instruction.operands at h
  split at h
  · cases h
  · cases h
  · exact hbranch h
  · exact hbranch h
  · exact isRunOf_of_mem_switchDigits h

/-- Where the operands can be read and the targets be written, a search that fails has come to a
jump to an address that the script does not have. -/
theorem IsReadable.isUnresolved_of_analyze (h : s.IsReadable)
    (htargets : ∀ ins ∈ s.instructions.toList, ∀ target ∈ ins.targets, Numeral.isWritable target)
    (he : s.analyze = .error e) : s.IsUnresolved e := by
  obtain ⟨hname, hcode⟩ := isWritable_iff.1 h.writable
  obtain ⟨i, hi⟩ := s.fault_explore _ _ _ (analyze_eq_error_iff.1 he)
  cases hins : s.instructions[i]? with
  | none =>
    rw [successors, hins] at hi
    cases hi
  | some ins =>
    have hmem : ins ∈ s.instructions.toList := Array.mem_toList_iff.2 (Array.mem_of_getElem? hins)
    have haddress : Numeral.isWritable ins.address := (Bool.and_eq_true_iff.1 (hcode ins hmem)).1
    have htell : s.Tellable ins := .of_writable hname haddress (htargets ins hmem)
    obtain ⟨-, hexplains⟩ := (successors_eq_error_iff hins htell).1 hi
    cases hexplains with
    | overlong hlong =>
      have hrun := h.texts ins hmem _ (isRunOf_of_mem_operands (List.mem_of_find?_eq_some hlong))
      have hover := List.find?_some hlong
      exact absurd hrun (Nat.not_le.2 (of_decide_eq_true hover))
    | missed hread hmissed =>
      have hnone := misses_iff.1 (List.find?_some hmissed)
      exact ⟨ins, hmem, _, rfl, lastPosition?_eq_none_iff.1 hnone⟩

end Script

/-! ## Texts -/

/-- No number is too long that reading the text deals with, and no count that it adds up. -/
structure Grammar.ConvertsText (g : Grammar) (text : String) : Prop where
  records : ∀ record ∈ recordsOf g text, g.Converts record
  counts : ∀ scripts, scriptsOf g text = .ok scripts →
    ∀ s ∈ scripts, ∀ ins ∈ s.instructions.toList, Numeral.isWritable ins.count

variable {g : Grammar} {text : String} {fault : Fault}

theorem Grammar.ConvertsText.isUnresolved (h : g.ConvertsText text)
    (he : scriptsOf g text = .error fault) :
    ∃ record ∈ recordsOf g text, ∃ s, Script.ofRecord g.dialect g.relocate record = .ok s ∧
      s.IsUnresolved fault := by
  rw [scriptsOf_eq] at he
  cases hadd : Session.addRecords g {} (recordsOf g text) with
  | ok s =>
    rw [hadd] at he
    cases he
  | error e =>
    rw [hadd] at he
    cases he
    obtain ⟨record, hrecord, s, hs, herror⟩ :=
      Session.exists_of_addRecords_error Session.filed_new hadd
    have hconverts := h.records record hrecord
    obtain ⟨script, hscript, hreadable⟩ := hconverts.exists_ofRecord
    have hanalyze := hs.analyze_of_addRecord_error hscript hreadable.writable herror
    exact ⟨record, hrecord, script, hscript,
      hreadable.isUnresolved_of_analyze (hconverts.targets script hscript) hanalyze⟩

/-- A text that is not longer than the longest number has no number that is too long in it. -/
theorem Grammar.ConvertsText.of_short (hlength : text.toList.length ≤ Numeral.digitLimit)
    (hplaces : ∀ record ∈ recordsOf g text, ∀ place ∈ tracedCoordinates g.dialect record,
      Numeral.isWritable (g.relocate place.1 place.2).2)
    (htargets : ∀ record ∈ recordsOf g text,
      ∀ s ∈ (Script.ofRecord g.dialect g.relocate record).toOption,
        ∀ ins ∈ s.instructions.toList, ∀ target ∈ ins.targets, Numeral.isWritable target)
    (hcounts : ∀ scripts ∈ (scriptsOf g text).toOption, ∀ s ∈ scripts,
      ∀ ins ∈ s.instructions.toList, Numeral.isWritable ins.count) : g.ConvertsText text := by
  have hruns : HasReadableRuns text.toList := fun run hrun => hrun.1.length_le.trans hlength
  refine ⟨fun record hrecord => ⟨?_, hplaces record hrecord, ?_⟩, ?_⟩
  · intro line hline
    exact hruns.within (infix_of_mem_splitLines (mem_splitLines_of_mem_recordsOf hrecord hline))
  · intro s hs
    exact htargets record hrecord s (by rw [hs]; rfl)
  · intro scripts hscripts
    exact hcounts scripts (by rw [hscripts]; rfl)

end BytecodeCoverage
