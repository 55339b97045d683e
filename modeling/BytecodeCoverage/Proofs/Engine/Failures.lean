-- SUMMARY: What a parse can fail for when nobody listens: lost jumps, and numbers beyond bounds.
import BytecodeCoverage.Proofs.Engine.Rejection
import BytecodeCoverage.Proofs.Engine.Totals
import BytecodeCoverage.Proofs.Script.Conversion
import BytecodeCoverage.Proofs.Store.Slots
import BytecodeCoverage.Proofs.Trace.Fields

/-!
# Failures

With no observers, what a parse fails for is in its text. Malformed lines are passed over, so the
one fault that a text is meant to have is a jump to an address that its script does not have. Two
others get through: for numbers with too many digits, and for lines that are too far down for the
room there is.
-/

namespace BytecodeCoverage

open Text

/-! ## Texts -/

namespace Engine

variable {d : Dialect} {room : Room} {text : String} {fault : Fault}

/-- A jump of a script of the text to an address that the script does not have. -/
def IsLostJump (d : Dialect) (text : String) (fault : Fault) : Prop :=
  ∃ record ∈ recordsOf { dialect := d } text,
    ∃ s, Script.ofRecord d Relocation.identity record = .ok s ∧ s.IsUnresolved fault

theorem isLostJump_of_scriptsOf (hruns : HasShortRuns text.toList)
    (h : scriptsOf { dialect := d, room } text = .error fault) : IsLostJump d text fault := by
  have hlines : ∀ record ∈ recordsOf { dialect := d, room } text, ∀ line ∈ record,
      HasShortRuns line.toList := by
    intro record hrecord line hline
    exact hruns.within (infix_of_mem_splitLines (mem_splitLines_of_mem_recordsOf hrecord hline))
  rw [scriptsOf_eq] at h
  cases hadd : Session.addRecords { dialect := d, room } {} (recordsOf { dialect := d, room } text) with
  | ok s =>
    rw [hadd] at h
    cases h
  | error e =>
    rw [hadd] at h
    cases h
    obtain ⟨record, hrecord, s, hs, he⟩ := Session.exists_of_addRecords_error Session.filed_new hadd
    obtain ⟨script, hscript, hshort⟩ := Script.exists_ofRecord d (hlines record hrecord)
    have hwritable := Script.isWritable_of_sign hshort.sign
    exact ⟨record, hrecord, script, hscript,
      hshort.isUnresolved_of_analyze (hs.analyze_of_addRecord_error hscript hwritable he)⟩

/-- There is no room for a file only if it has a line too far down. -/
theorem exists_far_down {g : Grammar} {dump : Dump} (hdump : dumpOf g text = .ok dump)
    (h : dump.fault ≠ none) : ∃ scripts, scriptsOf g text = .ok scripts ∧
      ∃ s ∈ scripts, ∃ ins ∈ s.instructions.toList, g.room.lines < ins.sourceLine := by
  obtain ⟨scripts, hscripts, rfl⟩ := scriptsOf_of_dumpOf hdump
  refine ⟨scripts, hscripts, ?_⟩
  by_contra hnear
  simp only [not_exists, not_and, Int.not_lt] at hnear
  refine h (Dump.fault_eq_none fun f hf => FileSnapshot.ofFile_of_room ?_)
  obtain ⟨⟨name, f'⟩, hmem, rfl⟩ := List.mem_map.1 hf
  exact numberedBy_of_groupByFile hnear (Std.TreeMap.mem_toList_iff_getElem?_eq_some.1 hmem)

theorem textFault_told (h : textFault { dialect := d, room } text = some fault) :
    IsLostJump d text fault ∨
      (fault.IsOfText ∧ ¬ HasShortRuns text.toList) ∨
      fault.IsOfRoom ∧ ∃ scripts, scriptsOf { dialect := d, room } text = .ok scripts ∧
        ∃ s ∈ scripts, ∃ ins ∈ s.instructions.toList,
          room.lines < ins.sourceLine := by
  unfold textFault at h
  cases hscripts : scriptsOf { dialect := d, room } text with
  | error e =>
    have hdump : dumpOf { dialect := d, room } text = .error e := by rw [dumpOf_eq, hscripts]; rfl
    rw [hdump] at h
    cases h
    by_cases hruns : HasShortRuns text.toList
    · exact .inl (isLostJump_of_scriptsOf hruns hscripts)
    · exact .inr (.inl ⟨ofText_scriptsOf _ text _ hscripts, hruns⟩)
  | ok scripts =>
    cases hdump : dumpOf { dialect := d, room } text with
    | error e =>
      rw [dumpOf_eq, hscripts] at hdump
      cases hdump
    | ok dump =>
      rw [hdump] at h
      change dump.fault = some fault at h
      refine .inr (.inr ⟨?_, ?_⟩)
      · obtain ⟨_, -, rfl⟩ := scriptsOf_of_dumpOf hdump
        exact Dump.fault_ofFiles h
      · rw [← hscripts]
        refine exists_far_down hdump fun hnone => ?_
        rw [hnone] at h
        cases h

/-! ## Parses -/

variable {σ : Type} {e : Engine σ} {behaviour : Behaviour σ}

/-- Where nobody is registered, nobody raises. By induction on the changes. -/
theorem commit_unheard {nested : Nested σ} (changes : List Change) (e : Engine σ)
    (hnobody : e.registry = []) : (commit behaviour nested e changes).2 = none := by
  induction changes generalizing e with
  | nil => rfl
  | cons change rest ih =>
    have hnotify : notify behaviour nested change.event (e.make change) e.registry =
        (e.make change, none) := by
      rw [hnobody]
      rfl
    rw [commit_of_notified hnotify]
    exact ih (e.make change) hnobody

theorem raised_unheard (he : e.parsing = false) (hnobody : e.registry = []) (g : Grammar)
    (text : String) : e.raised g behaviour text = none := by
  cases hdump : dumpOf g text with
  | error fault => exact raised_of_error he hdump behaviour
  | ok dump =>
    rw [raised_of_dump he hdump]
    exact commit_unheard _ e.begin hnobody

/-- With no relocation and no observers, and whatever room there is, a parse gives snapshots or fails
for a jump of the text to an address that its script does not have. It can fail for anything else
only where the text has a run of digits that is as long as the longest that is converted, or an
instruction on a line that is further down than there is room for. -/
theorem parse_fails_for (he : e.parsing = false) (hnobody : e.registry = [])
    (h : (e.parse { dialect := d, room } behaviour text).2 = .error fault) :
    IsLostJump d text fault ∨
    (fault.IsOfText ∧ ¬ HasShortRuns text.toList) ∨
    fault.IsOfRoom ∧ ∃ scripts, scriptsOf { dialect := d, room } text = .ok scripts ∧
      ∃ s ∈ scripts, ∃ ins ∈ s.instructions.toList, room.lines < ins.sourceLine := by
  rw [result_parse he, raised_unheard he hnobody] at h
  cases hfault : textFault { dialect := d, room } text with
  | none =>
    rw [hfault] at h
    cases h
  | some fault' =>
    rw [hfault] at h
    cases h
    exact textFault_told hfault

/-- A jump to an address that its script does not have. -/
def strayJump : String := "--- SCRIPT a.js:1 ---\n0:1/0/0 x 1 goto 7\n--- END SCRIPT"

theorem parse_strayJump :
    (({ memory := () } : Engine Unit).parse {} deaf strayJump).2 =
      .error (.unresolvedTarget "a.js:1" 0 7) ∧
    IsLostJump {} strayJump (.unresolvedTarget "a.js:1" 0 7) := by
  have hparse : (({ memory := () } : Engine Unit).parse {} deaf strayJump).2 =
      .error (.unresolvedTarget "a.js:1" 0 7) := by decide +kernel
  have hruns : HasShortRuns strayJump.toList := by
    intro run hrun
    have hlength : strayJump.toList.length < Numeral.digitLimit := by decide +kernel
    exact Nat.lt_of_le_of_lt hrun.1.length_le hlength
  refine ⟨hparse, ?_⟩
  rcases parse_fails_for rfl rfl hparse with hlost | ⟨-, hlong⟩ | ⟨hroom, -⟩
  · exact hlost
  · exact absurd hruns hlong
  · exact hroom.elim

/-! ## Padded numbers -/

/-- An instruction line with zeros for its address. -/
def paddedRow (n : Nat) : String := String.ofList (List.replicate n '0') ++ ":1/0/0 x 1 stop"

def paddedRecord (n : Nat) : List String := ["--- SCRIPT a.js:1 ---", paddedRow n, "--- END SCRIPT"]

def paddedDump (n : Nat) : String :=
  "--- SCRIPT a.js:1 ---" ++ "\n" ++ paddedRow n ++ "\n" ++ "--- END SCRIPT"

theorem toList_paddedRow (n : Nat) :
    (paddedRow n).toList = List.replicate n '0' ++ ":1/0/0 x 1 stop".toList := by
  rw [paddedRow, String.toList_append, String.toList_ofList]

theorem dataFields?_paddedRow {n : Nat} (hn : 0 < n) :
    dataFields? (paddedRow n).toList =
      some ⟨List.replicate n '0', [['1'], ['0'], ['0']], ['1'], "stop".toList⟩ := by
  have hzeros : ∀ c ∈ List.replicate n '0', isDigit c := by
    intro c hc
    rw [List.eq_of_mem_replicate hc]
    decide
  have hne : List.replicate n '0' ≠ [] := by
    rw [Ne, List.replicate_eq_nil_iff]
    omega
  have haddress : digits? (List.replicate n '0' ++ ":1/0/0 x 1 stop".toList) =
      some (List.replicate n '0', ":1/0/0 x 1 stop".toList) :=
    digits?_append hne hzeros (stops_cons (by decide) _)
  rw [toList_paddedRow, dataFields?, haddress]
  rfl

theorem head?_paddedRow {n : Nat} (hn : 0 < n) : (paddedRow n).toList.head? = some '0' := by
  obtain ⟨m, rfl⟩ := Nat.exists_eq_add_one.2 hn
  rw [toList_paddedRow]
  rfl

theorem toRow_paddedRow {n : Nat} (hn : Numeral.digitLimit < n) (d : Dialect) :
    DataFields.toRow d ⟨List.replicate n '0', [['1'], ['0'], ['0']], ['1'], "stop".toList⟩ =
      .error (.overlongDigits n) := by
  have hread : Numeral.read (List.replicate n '0') = .error (.overlongDigits n) :=
    Numeral.read_eq_error.2 ⟨by rwa [List.length_replicate], by rw [List.length_replicate]⟩
  have hline : Numeral.read ['1'] = .ok 1 := by decide +kernel
  rw [DataFields.toRow, hread, hline]
  rfl

theorem read_paddedRow {n : Nat} (hn : Numeral.digitLimit < n) :
    Row.read {} (paddedRow n) = .error (.overlongDigits n) := by
  have hpos : 0 < n := Nat.zero_lt_of_lt hn
  unfold Row.read
  split
  · rename_i file digits hheader
    rw [header?_of_head? (head?_paddedRow hpos) (by decide)] at hheader
    cases hheader
  · split
    · rename_i hmarker
      rw [isEndMarker_of_head? (head?_paddedRow hpos) (by decide)] at hmarker
      cases hmarker
    · split
      · rename_i hentry
        have hhead := head?_paddedRow hpos
        rw [hentry] at hhead
        cases hhead
      · rw [dataFields?_paddedRow hpos]
        exact toRow_paddedRow hn _

theorem splitLines_paddedDump (n : Nat) : splitLines (paddedDump n) = paddedRecord n := by
  have hrow : splitLines (paddedRow n) = [paddedRow n] := by
    refine splitLines_of_one ?_ ?_
    · rw [toList_paddedRow, List.mem_append, not_or]
      refine ⟨fun hmem => ?_, by decide⟩
      cases List.eq_of_mem_replicate hmem
    · rw [toList_paddedRow, List.getLast?_append_of_ne_nil _ (by decide)]
      decide
  have hfirst : splitLines "--- SCRIPT a.js:1 ---" = ["--- SCRIPT a.js:1 ---"] := by
    decide +kernel
  have hlast : splitLines "--- END SCRIPT" = ["--- END SCRIPT"] := by decide +kernel
  have hfront := splitLines_append "--- SCRIPT a.js:1 ---" (paddedRow n)
  have hwhole := splitLines_append ("--- SCRIPT a.js:1 ---" ++ "\n" ++ paddedRow n)
    "--- END SCRIPT"
  rw [hfront, hfirst, hrow, hlast] at hwhole
  exact hwhole

theorem recordsOf_paddedDump {n : Nat} (hn : 0 < n) :
    recordsOf {} (paddedDump n) = [paddedRecord n] := by
  have hheader : isHeader "--- SCRIPT a.js:1 ---" = true := by decide +kernel
  have hmarker : isEndMarker "--- END SCRIPT" = true := by decide +kernel
  have hrow : isEndMarker (paddedRow n) = false :=
    isEndMarker_of_head? (head?_paddedRow hn) (by decide)
  rw [recordsOf, splitLines_paddedDump, paddedRecord]
  simp only [RecordReader.records, RecordReader.step, RecordReader.close, hheader, hmarker,
    hrow, if_true, Bool.false_eq_true, if_false]
  simp [Dialect.isSentinel]

/-- Leading zeros count as digits, so a number may be zero and still too long to be read. -/
theorem parse_paddedDump (he : e.parsing = false) {n : Nat} (hn : Numeral.digitLimit < n) :
    (e.parse {} behaviour (paddedDump n)).2 = .error (.overlongDigits n) := by
  have hheader : Draft.addLine {} Relocation.identity {} "--- SCRIPT a.js:1 ---" =
      .ok { script := { filename := "a.js", startLine := 1 }, tracedFile := "a.js" } := by
    decide +kernel
  have hrow : ∀ draft, Draft.addLine {} Relocation.identity draft (paddedRow n) =
      .error (.overlongDigits n) := by
    intro draft
    rw [Draft.addLine, read_paddedRow hn]
    rfl
  have hrecord : Script.ofRecord {} Relocation.identity (paddedRecord n) =
      .error (.overlongDigits n) := by
    simp only [Script.ofRecord, paddedRecord, Draft.addLines, hheader, hrow]
    rfl
  have hfault : Session.addRecord {} {} (paddedRecord n) = .error (.overlongDigits n) := by
    rw [Session.addRecord_eq, hrecord]
    rfl
  have hrecords : recordsOf {} (paddedDump n) = [] ++ paddedRecord n :: [] :=
    recordsOf_paddedDump (Nat.zero_lt_of_lt hn)
  have hscripts := scriptsOf_of_bad_record hrecords rfl hfault
  rw [(parse_of_unread he hscripts behaviour).1]

theorem parse_padded :
    (({ memory := () } : Engine Unit).parse {} deaf (paddedDump 4301)).2 =
      .error (.overlongDigits 4301) := parse_paddedDump rfl (by decide)

end Engine

end BytecodeCoverage
