-- SUMMARY: Lines that say nothing and records that are dropped leave no trace in a session.
import BytecodeCoverage.Proofs.Session.Texts
import Mathlib.Logic.Relation

/-!
# Silence

A trace may have lines in it that are no part of the grammar, and records that the dialect drops.
Leaving such a line out does not change what any record says, and it does not change which lines
are the first of a record. So a session that reads the lines is, up to the silent lines of its open
record, the one that reads the others only. A record that is dropped does nothing from its header
to its end marker.
-/

namespace BytecodeCoverage

/-! ## Silent lines -/

/-- The line is none of the four marked kinds and continues nothing. -/
def Dialect.isSilent (d : Dialect) (line : String) : Bool :=
  !isHeader line && !isEndMarker line && line ≠ d.entryMarker &&
    (dataFields? line.toList).isNone && line.toList.head? ≠ some '\t'

/-- The lines that are not silent. -/
def Dialect.telling (d : Dialect) (lines : List String) : List String :=
  lines.filter (!d.isSilent ·)

variable {d : Dialect} {line : String} {lines : List String}

namespace Dialect

theorem isSilent_of_isHeader (h : isHeader line) : d.isSilent line = false := by
  simp [isSilent, h]

theorem isHeader_of_isSilent (h : d.isSilent line) : isHeader line = false := by
  simp only [isSilent, Bool.and_eq_true, Bool.not_eq_true'] at h
  exact h.1.1.1.1

theorem isEndMarker_of_isSilent (h : d.isSilent line) : isEndMarker line = false := by
  simp only [isSilent, Bool.and_eq_true, Bool.not_eq_true'] at h
  exact h.1.1.1.2

theorem telling_cons_of_isSilent (h : d.isSilent line) (rest : List String) :
    d.telling (line :: rest) = d.telling rest :=
  List.filter_cons_of_neg (by simp [h])

theorem telling_cons (h : d.isSilent line = false) (rest : List String) :
    d.telling (line :: rest) = line :: d.telling rest :=
  List.filter_cons_of_pos (by simp [h])

end Dialect

theorem Row.read_of_isSilent (h : d.isSilent line) : Row.read d line = .ok .noise := by
  simp only [Dialect.isSilent, Bool.and_eq_true, Bool.not_eq_true', decide_eq_true_eq,
    Option.isNone_iff_eq_none, ne_eq] at h
  obtain ⟨⟨⟨⟨hheader, hend⟩, hentry⟩, hdata⟩, htab⟩ := h
  have hnone : header? line.toList = none := by simpa [isHeader] using hheader
  simp [read, hnone, hend, hentry, hdata, htab]

theorem Draft.addLine_of_isSilent (relocate : Relocation) (draft : Draft) (h : d.isSilent line) :
    draft.addLine d relocate line = .ok draft := by
  rw [addLine, Row.read_of_isSilent h]
  rfl

theorem Draft.addLines_telling (relocate : Relocation) (draft : Draft) (lines : List String) :
    draft.addLines d relocate (d.telling lines) = draft.addLines d relocate lines := by
  induction lines generalizing draft with
  | nil => rfl
  | cons line rest ih =>
    cases h : d.isSilent line with
    | true =>
      rw [Dialect.telling_cons_of_isSilent h, ih, addLines, addLine_of_isSilent relocate draft h]
    | false =>
      rw [Dialect.telling_cons h, addLines, addLines]
      cases draft.addLine d relocate line with
      | error e => rfl
      | ok next => exact ih next

/-- A record says what its telling lines say. -/
theorem Script.ofRecord_telling (relocate : Relocation) (record : List String) :
    Script.ofRecord d relocate (d.telling record) = Script.ofRecord d relocate record := by
  rw [ofRecord, Draft.addLines_telling]
  rfl

/-! ## Readers -/

namespace RecordReader

/-- The reader that has not taken the silent lines of the open record. -/
def strip (d : Dialect) (r : RecordReader) : RecordReader :=
  ⟨r.openRecord.map fun lines => lines.filter (!d.isSilent ·)⟩

@[simp] theorem inRecord_strip (d : Dialect) (r : RecordReader) :
    (r.strip d).inRecord = r.inRecord := by
  simp [strip, inRecord]

variable {r : RecordReader}

/-- A silent line closes no record, and a stripped reader does not take it. -/
theorem step_of_isSilent (r : RecordReader) (h : d.isSilent line) :
    (r.step d line).1.strip d = r.strip d ∧ (r.step d line).2 = none := by
  obtain ⟨_ | lines⟩ := r
  · simp [RecordReader.step, RecordReader.close, Dialect.isHeader_of_isSilent h]
  · simp [RecordReader.step, RecordReader.close, Dialect.isEndMarker_of_isSilent h, strip, h]

/-- A telling line closes for a stripped reader what it closes for the reader, stripped. -/
theorem close_strip (r : RecordReader) (h : d.isSilent line = false) :
    (r.strip d).close line = ((r.close line).1.strip d, (r.close line).2.map d.telling) := by
  obtain ⟨_ | lines⟩ := r
  · simp only [RecordReader.close, strip, Option.map_none]
    split
    · simp [h]
    · rfl
  · simp only [RecordReader.close, strip, Option.map_some]
    split
    · simp [Dialect.telling, h]
    · simp [h]

/-- Whether a record is a sentinel's is told by its header. -/
theorem isSentinel_telling {record : List String} {header : String} {rest : List String}
    (hrecord : record = header :: rest) (hheader : isHeader header) :
    d.isSentinel (d.telling record) = d.isSentinel record := by
  rw [hrecord, Dialect.telling_cons (Dialect.isSilent_of_isHeader hheader)]
  rfl

theorem step_strip (hr : r.Headed) (h : d.isSilent line = false) :
    (r.strip d).step d line = ((r.step d line).1.strip d, (r.step d line).2.map d.telling) := by
  simp only [RecordReader.step, close_strip r h]
  cases hclose : (r.close line).2 with
  | none => rfl
  | some record =>
    obtain ⟨header, rest, hrecord, hheader⟩ := hr.close_eq_some hclose
    simp only [Option.map_some, Option.filter_some, isSentinel_telling hrecord hheader]
    split
    · rfl
    · rfl

end RecordReader

/-! ## Sessions -/

namespace Session

variable {g : Grammar} {s s' : Session}

/-- The session that has not taken the silent lines of the open record. -/
def strip (d : Dialect) (s : Session) : Session := { s with reader := s.reader.strip d }

/-- A record does what its telling lines do, whatever silent lines are being read. -/
theorem addRecord_strip (s : Session) (record : List String) :
    (s.strip g.dialect).addRecord g (g.dialect.telling record) =
      (s.addRecord g record).map (strip g.dialect) := by
  rw [addRecord_eq, addRecord_eq, Script.ofRecord_telling]
  change (_ >>= register s.registry).map _ = _
  cases Script.ofRecord g.dialect g.relocate record >>= register s.registry with
  | error e => rfl
  | ok registry => rfl

theorem takeRecord_strip (s : Session) (record : List String) :
    (s.strip g.dialect).takeRecord g (g.dialect.telling record) =
      ((s.takeRecord g record).1.strip g.dialect, (s.takeRecord g record).2) := by
  rw [takeRecord_eq, takeRecord_eq, addRecord_strip]
  cases s.addRecord g record with
  | error e => rfl
  | ok s' => rfl

theorem reader_addLine (s : Session) (line : String) :
    (s.addLine g line).1.reader = (s.reader.step g.dialect line).1 := by
  unfold addLine
  rcases s.reader.step g.dialect line with ⟨reader, _ | record⟩
  · rfl
  · simp only [takeRecord_eq]
    cases h : addRecord g { s with reader } record with
    | error e => rfl
    | ok s' =>
      rw [addRecord_eq] at h
      obtain ⟨registry, -, rfl⟩ := map_eq_ok_iff.1 h
      rfl

theorem addLine_of_isSilent {line : String} (s : Session) (h : g.dialect.isSilent line) :
    ((s.addLine g line).1.strip g.dialect, (s.addLine g line).2) = (s.strip g.dialect, none) := by
  obtain ⟨hreader, hnone⟩ := RecordReader.step_of_isSilent s.reader h
  unfold addLine
  rcases hstep : s.reader.step g.dialect line with ⟨reader, record⟩
  rw [hstep] at hreader hnone
  cases hnone
  simp only [strip]
  rw [hreader]

theorem addLine_strip {line : String} (hs : s.reader.Headed)
    (h : g.dialect.isSilent line = false) :
    (s.strip g.dialect).addLine g line =
      ((s.addLine g line).1.strip g.dialect, (s.addLine g line).2) := by
  have hstep := RecordReader.step_strip hs h
  unfold addLine
  rcases hclosed : s.reader.step g.dialect line with ⟨reader, _ | record⟩ <;> rw [hclosed] at hstep
  · rw [strip, hstep]
    rfl
  · rw [strip, hstep]
    exact takeRecord_strip { s with reader } record

/-- By induction on the lines: a silent one is not taken by the stripped session, and any other
does to it what it does to the session. -/
theorem addLines_strip (hs : s.reader.Headed) (lines : List String) :
    (s.strip g.dialect).addLines g (g.dialect.telling lines) =
      ((s.addLines g lines).1.strip g.dialect, (s.addLines g lines).2) := by
  induction lines generalizing s with
  | nil => rfl
  | cons line rest ih =>
    have hnext : (s.addLine g line).1.reader.Headed := by
      rw [reader_addLine]
      exact hs.step _ _
    cases h : g.dialect.isSilent line with
    | true =>
      obtain ⟨hstrip, hnone⟩ := Prod.mk.inj (addLine_of_isSilent s h)
      rw [Dialect.telling_cons_of_isSilent h, addLines]
      rcases hline : s.addLine g line with ⟨next, fault⟩
      rw [hline] at hnext hstrip hnone
      cases hnone
      rw [← hstrip]
      exact ih hnext
    | false =>
      rw [Dialect.telling_cons h, addLines, addLines, addLine_strip hs h]
      rcases hline : s.addLine g line with ⟨next, _ | e⟩
      · rw [hline] at hnext
        exact ih hnext
      · rfl

/-! ## Records that are dropped -/

/-- Inside a record, lines that end none are taken and do nothing else. -/
theorem addLines_inside {lines : Array String} {body : List String} (hs : s.reader = ⟨some lines⟩)
    (hbody : ∀ line ∈ body, isEndMarker line = false) :
    s.addLines g body = ({ s with reader := ⟨some (lines ++ body)⟩ }, none) := by
  induction body generalizing s lines with
  | nil =>
    obtain ⟨reader, scripts, table, linked⟩ := s
    cases hs
    simp [addLines]
  | cons line rest ih =>
    obtain ⟨hline, hrest⟩ := List.forall_mem_cons.1 hbody
    have hstep : s.addLine g line = ({ s with reader := ⟨some (lines.push line)⟩ }, none) := by
      simp [addLine, RecordReader.step, RecordReader.close, hs, hline]
    rw [addLines, hstep]
    simp only
    rw [ih rfl hrest]
    simp

/-- A record of a sentinel, whatever is in it, leaves a session between records as it was. -/
theorem addLines_sentinel {header finish : String} {body : List String}
    (hs : s.reader.inRecord = false) (hsentinel : header ∈ g.dialect.sentinelHeaders)
    (hheader : isHeader header) (hbody : ∀ line ∈ body, isEndMarker line = false)
    (hfinish : isEndMarker finish) :
    s.addLines g (header :: body ++ [finish]) = (s, none) := by
  obtain ⟨⟨_ | lines⟩, scripts, table, linked⟩ := s
  · have hopen : addLine g ⟨⟨none⟩, scripts, table, linked⟩ header =
        (⟨⟨some #[header]⟩, scripts, table, linked⟩, none) := by
      simp [addLine, RecordReader.step, RecordReader.close, hheader]
    have hclose : addLine g ⟨⟨some (#[header] ++ body)⟩, scripts, table, linked⟩ finish =
        (⟨⟨none⟩, scripts, table, linked⟩, none) := by
      simp [addLine, RecordReader.step, RecordReader.close, hfinish, Dialect.isSentinel,
        hsentinel, Option.filter_some]
    rw [List.cons_append, addLines, hopen]
    simp only
    rw [addLines_append (addLines_inside rfl hbody), addLines, hclose]
    rfl
  · cases hs

/-! ## Edits -/

/-- One list of lines is another with a silent line put in, or with a record of a sentinel taken
out that is read as a record of its own. -/
inductive Edit (d : Dialect) : List String → List String → Prop where
  | insert {line : String} (before after : List String) (hline : d.isSilent line) :
      Edit d (before ++ after) (before ++ line :: after)
  | drop {header finish : String} {body : List String} (before after : List String)
      (hbefore : (RecordReader.records d {} before).1.inRecord = false)
      (hsentinel : header ∈ d.sentinelHeaders) (hheader : isHeader header)
      (hbody : ∀ line ∈ body, isEndMarker line = false) (hfinish : isEndMarker finish) :
      Edit d (before ++ (header :: body ++ [finish]) ++ after) (before ++ after)

/-- What a session shows of itself after some lines, and the fault with which they ended, if one
of them failed. -/
def shown (result : Session × Option Fault) : List Registered × Bool × Option Fault :=
  (result.1.registry, result.1.reader.inRecord, result.2)

/-- What lines come to is told by those that are not silent. -/
theorem shown_addLines_telling (lines : List String) :
    shown (addLines g {} (g.dialect.telling lines)) = shown (addLines g {} lines) := by
  have hstrip := addLines_strip (g := g) (s := {}) RecordReader.headed_new lines
  change addLines g {} (g.dialect.telling lines) = _ at hstrip
  rw [hstrip]
  exact Prod.ext rfl (Prod.ext (by simp [shown, strip]) rfl)

theorem shown_addLines_edit {lines lines' : List String} (h : Edit g.dialect lines lines') :
    shown (addLines g {} lines') = shown (addLines g {} lines) := by
  cases h with
  | insert before after hline =>
    rw [← shown_addLines_telling, ← shown_addLines_telling (before ++ after)]
    simp [Dialect.telling, hline]
  | @drop header finish body before after hbefore hsentinel hheader hbody hfinish =>
    rcases hs : addLines g {} before with ⟨s, _ | e⟩
    · have houtside : s.reader.inRecord = false := by
        rw [reader_addLines hs]
        exact hbefore
      have hrecord := addLines_sentinel houtside hsentinel hheader hbody hfinish
      rw [List.append_assoc, addLines_append hs, addLines_append hs, addLines_append hrecord]
    · rw [List.append_assoc, addLines_append_of_error hs, addLines_append_of_error hs]

/-- Any number of silent lines may be put into a trace, and any records of sentinels taken out: the
session comes to the same scripts, is as much inside a record, and has failed with the same fault
if it has failed. -/
theorem addLines_edited {lines lines' : List String}
    (h : Relation.ReflTransGen (Edit g.dialect) lines lines') :
    let done := addLines g {} lines
    let done' := addLines g {} lines'
    done'.1.scripts = done.1.scripts ∧ done'.1.reader.inRecord = done.1.reader.inRecord ∧
      done'.2 = done.2 := by
  intro done done'
  have hshown : shown done' = shown done := by
    induction h with
    | refl => rfl
    | tail _ hstep ih => exact (shown_addLines_edit hstep).trans ih
  simp only [shown, Prod.mk.injEq] at hshown
  obtain ⟨hregistry, hinside, hfault⟩ := hshown
  refine ⟨?_, hinside, hfault⟩
  rw [scripts_eq, scripts_eq, hregistry]

/-- The record of an evaluation, with a jump to nowhere. -/
def evaluation : List String :=
  ["--- SCRIPT -e:1 ---", "0:1/0/0 x 1 goto 9", "--- END SCRIPT ---"]

/-- The record of a script that begins with a switch, perhaps with a note before its cases. -/
def switchRecord (note : List String) : List String :=
  ["--- SCRIPT a.js:1 ---", "0:1/0/0 x 1 tableswitch defaultOffset 1"] ++
    (note ++ ["\t0: 1", "1:1/0/0 x 2 stop", "--- END SCRIPT ---"])

theorem addLines_edited_note :
    Relation.ReflTransGen (Edit ({} : Grammar).dialect) (evaluation ++ switchRecord [])
        (switchRecord ["0:1/0 x 1 note"]) ∧
      (addLines {} {} (switchRecord ["0:1/0 x 1 note"])).1.scripts =
        (addLines {} {} (evaluation ++ switchRecord [])).1.scripts ∧
      ((addLines {} {} (evaluation ++ switchRecord [])).1.scripts.map (·.counts)) = [[1, 1]] := by
  have hbody : ∀ line ∈ ["0:1/0/0 x 1 goto 9"], isEndMarker line = false := by decide +kernel
  have hdrop : Edit ({} : Grammar).dialect (evaluation ++ switchRecord []) (switchRecord []) :=
    .drop [] (switchRecord []) rfl (by decide) (by decide +kernel) hbody (by decide +kernel)
  have hinsert : Edit ({} : Grammar).dialect (switchRecord []) (switchRecord ["0:1/0 x 1 note"]) :=
    .insert _ _ (by decide +kernel)
  have hedits := Relation.ReflTransGen.tail (.single hdrop) hinsert
  exact ⟨hedits, (addLines_edited hedits).1, by decide +kernel⟩

end Session

end BytecodeCoverage
