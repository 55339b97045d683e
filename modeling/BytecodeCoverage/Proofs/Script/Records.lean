-- SUMMARY: What a script is like that was built from the lines of a record.
import BytecodeCoverage.Proofs.Script.Counts
import BytecodeCoverage.Proofs.Script.Faults
import BytecodeCoverage.Proofs.Script.Signature
import BytecodeCoverage.Script.Draft
import Mathlib.Data.List.TakeWhile

/-!
# Records

A script that is built from a record has no marks yet, and no count below zero. If no line of the
record has a newline, then the name of the file and the texts have none. A row can only add to
what the draft had, so each of this is kept from row to row.
-/

namespace BytecodeCoverage

open Text

/-! ## Rows -/

namespace Row

/-- What the row puts into a draft is on one line. -/
def IsOneLined : Row → Prop
  | .header file _ => '\n' ∉ file.toList
  | .data _ _ _ text => '\n' ∉ text.toList
  | .continuation text => '\n' ∉ text.toList
  | _ => True

end Row

theorem newline_not_mem_of_header? {line file digits : List Char}
    (h : header? line = some (file, digits)) : '\n' ∉ file := by
  simp only [header?, Option.bind_eq_bind, Option.bind_eq_some_iff] at h
  obtain ⟨rest, -, back, -, h⟩ := h
  split at h
  · split at h
    · rename_i file' _ hfile
      cases h
      simpa using hfile.2
    · cases h
  · cases h

theorem newline_not_mem_of_lineText? {cs text : List Char} (h : lineText? cs = some text) :
    '\n' ∉ text := by
  simp only [lineText?] at h
  split at h
  · cases h
    intro hmem
    simpa using List.mem_takeWhile_imp hmem
  · cases h

theorem newline_not_mem_of_dataFields? {line : List Char} {fields : DataFields}
    (h : dataFields? line = some fields) : '\n' ∉ fields.text := by
  simp only [dataFields?, Option.bind_eq_bind, Option.bind_eq_some_iff] at h
  -- Eight readers come before the one of the text.
  obtain ⟨_, _, _, _, _, _, _, _, _, _, _, _, _, _, _, _, text, htext, h⟩ := h
  cases h
  exact newline_not_mem_of_lineText? htext

/-- A text is cut down to a mnemonic that it starts with. -/
theorem newline_not_mem_instructionText (d : Dialect) {text : String} (h : '\n' ∉ text.toList) :
    '\n' ∉ (d.instructionText text).toList := by
  unfold Dialect.instructionText
  cases hfind : d.placeholderMnemonics.find? fun mnemonic =>
      (mnemonic.toList ++ [' ']).isPrefixOf text.toList with
  | none => exact h
  | some mnemonic =>
    have hlead : (mnemonic.toList ++ [' ']).isPrefixOf text.toList := by
      simpa using List.find?_some hfind
    have hstarts := List.isPrefixOf_iff_prefix.1 hlead
    exact fun hmem => h (hstarts.subset (List.mem_append_left _ hmem))

theorem DataFields.toRow_eq_ok {d : Dialect} {fields : DataFields} {row : Row}
    (h : fields.toRow d = .ok row) : ∃ address sourceLine count,
      row = .data address sourceLine count (d.instructionText (String.ofList fields.text)) := by
  unfold toRow at h
  obtain ⟨sourceLine, -, h⟩ := bind_eq_ok_iff.1 h
  obtain ⟨address, -, h⟩ := bind_eq_ok_iff.1 h
  obtain ⟨count, -, h⟩ := bind_eq_ok_iff.1 h
  cases h
  exact ⟨address, sourceLine, count, rfl⟩

theorem Row.isOneLined_of_read {d : Dialect} {line : String} {row : Row}
    (hline : '\n' ∉ line.toList) (h : Row.read d line = .ok row) : row.IsOneLined := by
  unfold Row.read at h
  split at h
  · rename_i file digits hheader
    obtain ⟨startLine, -, rfl⟩ := map_eq_ok_iff.1 h
    simpa [IsOneLined] using newline_not_mem_of_header? hheader
  · split at h
    · cases h
      trivial
    · split at h
      · cases h
        trivial
      · split at h
        · rename_i fields hfields
          obtain ⟨address, sourceLine, count, rfl⟩ := fields.toRow_eq_ok h
          refine newline_not_mem_instructionText d ?_
          simpa using newline_not_mem_of_dataFields? hfields
        · split at h
          · cases h
            exact hline
          · cases h
            trivial

/-! ## Drafts -/

namespace Draft

variable {relocate : Relocation} {d d' : Draft} {row : Row}

/-- A draft keeps its file and its start line unless the row is a header. -/
theorem place_addRow (h : d.addRow relocate row = .ok d') :
    (d'.script.filename, d'.script.startLine) = (d.script.filename, d.script.startLine) ∨
      ∃ file line, row = .header file line ∧
        (d'.script.filename, d'.script.startLine) = relocate file line := by
  cases row with
  | header file line =>
    cases h
    exact .inr ⟨file, line, rfl, rfl⟩
  | continuation text =>
    simp only [addRow] at h
    split at h
    · split at h
      · cases h
        exact .inl rfl
      · cases h
    · cases h
      exact .inl rfl
  | entry => cases h; exact .inl rfl
  | data address sourceLine count text => cases h; exact .inl rfl
  | finish => cases h; exact .inl rfl
  | noise => cases h; exact .inl rfl

/-- A row is taken unless the name of the script is too long to report it. -/
theorem exists_addRow_of_writable (hname : d.script.nameIsWritable) (row : Row) :
    ∃ d', d.addRow relocate row = .ok d' := by
  cases row with
  | continuation text =>
    simp only [addRow, hname, if_true]
    split
    · exact ⟨d, rfl⟩
    · exact ⟨d.continueText text, rfl⟩
  | header file line => exact ⟨_, rfl⟩
  | entry => exact ⟨_, rfl⟩
  | data address sourceLine count text => exact ⟨_, rfl⟩
  | finish => exact ⟨_, rfl⟩
  | noise => exact ⟨_, rfl⟩

theorem mem_continueText {text : String} {ins : Instruction}
    (h : ins ∈ (d.continueText text).script.instructions.toList) :
    ins ∈ d.script.instructions.toList ∨
      ∃ old ∈ d.script.instructions.toList, ins = { old with text := old.text ++ text } := by
  obtain ⟨i, hi⟩ := List.mem_iff_getElem?.1 h
  rw [Array.getElem?_toList, continueText, Array.getElem?_modify] at hi
  split at hi
  · obtain ⟨old, hold, rfl⟩ := Option.map_eq_some_iff.1 hi
    exact .inr ⟨old, Array.mem_toList_iff.2 (Array.mem_of_getElem? hold), rfl⟩
  · exact .inl (Array.mem_toList_iff.2 (Array.mem_of_getElem? hi))

/-- An instruction of a draft was there before, is what the row says, or was there with less
text. -/
theorem mem_addRow (h : d.addRow relocate row = .ok d') {ins : Instruction}
    (hins : ins ∈ d'.script.instructions.toList) :
    ins ∈ d.script.instructions.toList ∨
      (∃ (address line count : Nat) (text : String), row = .data address line count text ∧
        ins = { address, sourceLine := (relocate d.tracedFile line).2, text, count }) ∨
      ∃ text, row = .continuation text ∧
        ∃ old ∈ d.script.instructions.toList, ins = { old with text := old.text ++ text } := by
  cases row with
  | data address sourceLine count text =>
    cases h
    rw [Array.toList_push, List.mem_append] at hins
    rcases hins with hins | hins
    · exact .inl hins
    · exact .inr (.inl ⟨address, sourceLine, count, text, rfl, List.mem_singleton.1 hins⟩)
  | continuation text =>
    simp only [addRow] at h
    split at h
    · split at h
      · cases h
        exact .inl hins
      · cases h
    · cases h
      exact (mem_continueText hins).imp_right fun hold => .inr ⟨text, rfl, hold⟩
  | header file line => cases h; exact .inl hins
  | entry => cases h; exact .inl hins
  | finish => cases h; exact .inl hins
  | noise => cases h; exact .inl hins

/-- The draft of which nothing but a header has been read. -/
def opened (file : String) (startLine : Int) : Draft :=
  { script := { filename := file, startLine }, tracedFile := file }

theorem addLines_cons {dialect : Dialect} {line : String} (hread : Row.read dialect line = .ok row)
    (hrow : d.addRow relocate row = .ok d') (rest : List String) :
    d.addLines dialect relocate (line :: rest) = d'.addLines dialect relocate rest := by
  rw [addLines, addLine, hread, Except.bind, hrow]

theorem addLines_cons_of_error {dialect : Dialect} {line : String} {e : Fault}
    (hread : Row.read dialect line = .error e) (relocate : Relocation) (d : Draft)
    (rest : List String) : d.addLines dialect relocate (line :: rest) = .error e := by
  rw [addLines, addLine, hread]
  rfl

theorem addLines_append (dialect : Dialect) (front back : List String) :
    d.addLines dialect relocate (front ++ back) =
      (d.addLines dialect relocate front).bind (·.addLines dialect relocate back) := by
  induction front generalizing d with
  | nil => rfl
  | cons line front ih =>
    rw [List.cons_append, addLines, addLines]
    cases d.addLine dialect relocate line with
    | ok d' => exact ih
    | error e => rfl

/-- What every row keeps, a record keeps. -/
theorem addLines_keeps {P : Draft → Prop} {dialect : Dialect} {lines : List String}
    (hstep : ∀ line ∈ lines, ∀ row, Row.read dialect line = .ok row →
      ∀ d d', P d → d.addRow relocate row = .ok d' → P d')
    {d d' : Draft} (hd : P d) (h : d.addLines dialect relocate lines = .ok d') : P d' := by
  induction lines generalizing d with
  | nil =>
    cases h
    exact hd
  | cons line rest ih =>
    unfold addLines at h
    split at h
    · rename_i d₁ hline
      obtain ⟨row, hread, hrow⟩ := bind_eq_ok_iff.1 hline
      have hd₁ : P d₁ := hstep line (.head _) row hread d d₁ hd hrow
      exact ih (fun line' hline' => hstep line' (.tail _ hline')) hd₁ h
    · cases h

end Draft

/-! ## Scripts of records -/

theorem Script.isWritable_iff {s : Script} :
    s.isWritable ↔ s.nameIsWritable ∧ ∀ ins ∈ s.instructions.toList, ins.isWritable := by
  rw [isWritable, Bool.and_eq_true, Array.all_eq_true']
  simp only [Array.mem_toList_iff]

/-- What the trace says of an instruction: a count, and nothing of what a search finds out. -/
structure Instruction.IsRecorded (ins : Instruction) : Prop where
  unmarked : ins.unmarked = ins
  count : 0 ≤ ins.count

/-- A relocation that moves no file to a name of several lines. -/
def Relocation.KeepsLines (relocate : Relocation) : Prop :=
  ∀ file line, '\n' ∉ file.toList → '\n' ∉ (relocate file line).1.toList

namespace Script

variable {dialect : Dialect} {relocate : Relocation} {lines : List String} {s : Script}

theorem isRecorded_of_ofRecord (h : Script.ofRecord dialect relocate lines = .ok s) :
    ∀ ins ∈ s.instructions.toList, ins.IsRecorded := by
  obtain ⟨d, hd, rfl⟩ := map_eq_ok_iff.1 h
  refine Draft.addLines_keeps
    (P := fun d => ∀ ins ∈ d.script.instructions.toList, ins.IsRecorded) ?_ (by simp) hd
  intro line _ row _ d d' hold hrow ins hins
  rcases Draft.mem_addRow hrow hins with hins | ⟨address, line, count, text, -, rfl⟩ |
    ⟨text, -, old, hmem, rfl⟩
  · exact hold ins hins
  · exact ⟨rfl, Int.natCast_nonneg count⟩
  · obtain ⟨hmarks, hcount⟩ := hold old hmem
    exact ⟨congrArg (fun i : Instruction => { i with text := old.text ++ text }) hmarks, hcount⟩

theorem isUnmarked_of_ofRecord (h : Script.ofRecord dialect relocate lines = .ok s) :
    s.IsUnmarked := fun ins hins => (isRecorded_of_ofRecord h ins hins).unmarked

theorem oneLined_of_ofRecord (hrelocate : relocate.KeepsLines)
    (hlines : ∀ line ∈ lines, '\n' ∉ line.toList)
    (h : Script.ofRecord dialect relocate lines = .ok s) : s.OneLined := by
  obtain ⟨d, hd, rfl⟩ := map_eq_ok_iff.1 h
  refine Draft.addLines_keeps (P := fun d => d.script.OneLined) ?_ ⟨by decide, by simp⟩ hd
  intro line hline row hread d d' hold hrow
  have hrow' : row.IsOneLined := Row.isOneLined_of_read (hlines line hline) hread
  refine ⟨?_, ?_⟩
  · rcases Draft.place_addRow hrow with hplace | ⟨file, line, rfl, hplace⟩
    · have hfile : d'.script.filename = d.script.filename := congrArg Prod.fst hplace
      exact hfile ▸ hold.filename
    · have hfile : d'.script.filename = (relocate file line).1 := congrArg Prod.fst hplace
      exact hfile ▸ hrelocate file line hrow'
  · intro ins hins
    rcases Draft.mem_addRow hrow hins with hins | ⟨address, line, count, text, rfl, rfl⟩ |
      ⟨text, rfl, old, hmem, rfl⟩
    · exact hold.texts ins hins
    · exact hrow'
    · have hold' := hold.texts old hmem
      have hmore : '\n' ∉ text.toList := hrow'
      simp [hold', hmore]

end Script

end BytecodeCoverage
