-- SUMMARY: What records are made of: a header, and lines that have been read.
import BytecodeCoverage.Trace.RecordReader

/-!
# Records of a trace

A record is opened by a header and takes the lines that are read, and no others. So every record
begins with a header, and its lines are lines of the trace.
-/

namespace BytecodeCoverage

namespace RecordReader

variable {d : Dialect} {r : RecordReader} {line : String}

/-! ## Lines -/

/-- The lines of the record that is open. -/
def pending (r : RecordReader) : List String := (r.openRecord.map (·.toList)).getD []

/-- What a line leaves open, and what it closes, is made of the lines before it and the line. -/
theorem mem_close (r : RecordReader) (line : String) :
    (∀ x ∈ (r.close line).1.pending, x ∈ r.pending ∨ x = line) ∧
      ∀ record, (r.close line).2 = some record → ∀ x ∈ record, x ∈ r.pending ∨ x = line := by
  unfold close
  cases hopen : r.openRecord with
  | none =>
    refine ⟨?_, nofun⟩
    intro x hx
    simp only at hx
    split at hx
    · exact .inr (List.mem_singleton.1 hx)
    · exact .inl hx
  | some lines =>
    have hpending : r.pending = lines.toList := by rw [pending, hopen]; rfl
    have hpush : ∀ x ∈ (lines.push line).toList, x ∈ r.pending ∨ x = line := by
      intro x hx
      rw [hpending]
      simpa using hx
    simp only
    split
    · refine ⟨nofun, ?_⟩
      rintro _ ⟨⟩
      exact hpush
    · exact ⟨hpush, nofun⟩

theorem mem_pending_step {line x : String} (h : x ∈ (r.step d line).1.pending) :
    x ∈ r.pending ∨ x = line := (mem_close r line).1 x h

theorem mem_step {line x : String} {record : List String}
    (hrecord : (r.step d line).2 = some record) (h : x ∈ record) : x ∈ r.pending ∨ x = line :=
  (mem_close r line).2 record (Option.filter_eq_some_iff.1 hrecord).1 x h

/-- A record is made of lines that have been read. -/
theorem mem_of_mem_records {lines : List String} {record : List String}
    (hrecord : record ∈ (r.records d lines).2) {x : String} (h : x ∈ record) :
    x ∈ r.pending ∨ x ∈ lines := by
  induction lines generalizing r with
  | nil => cases hrecord
  | cons line rest ih =>
    rw [records] at hrecord
    rcases List.mem_append.1 hrecord with hclosed | hlater
    · refine (mem_step (Option.mem_toList.1 hclosed) h).imp_right fun hx => ?_
      exact List.mem_cons.2 (.inl hx)
    · rcases ih hlater with hx | hx
      · refine (mem_pending_step hx).imp_right fun hx => ?_
        exact List.mem_cons.2 (.inl hx)
      · exact .inr (.tail _ hx)

/-! ## Headers -/

/-- The open record starts with a header. -/
def Headed (r : RecordReader) : Prop :=
  ∀ lines, r.openRecord = some lines → ∃ header rest, lines.toList = header :: rest ∧
    isHeader header

theorem headed_new : Headed {} := nofun

theorem Headed.close (h : r.Headed) (line : String) : (r.close line).1.Headed := by
  obtain ⟨_ | lines⟩ := r
  · simp only [RecordReader.close]
    split
    · rename_i hheader
      rintro _ ⟨⟩
      exact ⟨line, [], rfl, hheader⟩
    · exact h
  · simp only [RecordReader.close]
    split
    · exact headed_new
    · rintro _ ⟨⟩
      obtain ⟨header, rest, hlines, hheader⟩ := h lines rfl
      exact ⟨header, rest ++ [line], by simp [hlines], hheader⟩

theorem Headed.step (h : r.Headed) (d : Dialect) (line : String) : (r.step d line).1.Headed :=
  h.close line

theorem Headed.close_eq_some (h : r.Headed) {record : List String}
    (hclose : (r.close line).2 = some record) :
    ∃ header rest, record = header :: rest ∧ isHeader header := by
  obtain ⟨_ | lines⟩ := r
  · cases hclose
  · simp only [RecordReader.close] at hclose
    split at hclose
    · cases hclose
      obtain ⟨header, rest, hlines, hheader⟩ := h lines rfl
      exact ⟨header, rest ++ [line], by simp [hlines], hheader⟩
    · cases hclose

theorem Headed.mem_records (h : r.Headed) {lines : List String} {record : List String}
    (hrecord : record ∈ (r.records d lines).2) :
    ∃ header rest, record = header :: rest ∧ isHeader header := by
  induction lines generalizing r with
  | nil => cases hrecord
  | cons line rest ih =>
    rw [records] at hrecord
    rcases List.mem_append.1 hrecord with hclosed | hlater
    · exact h.close_eq_some (Option.filter_eq_some_iff.1 (Option.mem_toList.1 hclosed)).1
    · exact ih (h.step d line) hlater

end RecordReader

end BytecodeCoverage
