-- SUMMARY: The lines of a trace fall into records and noise in one way, and the reader finds it.
import BytecodeCoverage.Proofs.Trace.Records

/-!
# The layout of a trace

The lines of a trace fall into records, noise around them, and perhaps a record at the end that is
not closed. They do so in one way only, whatever headers and end markers stand where they do not
belong. The reader gives those records, less the sentinels', and in the end it is inside a record
just if one is open.

The layout of some lines is built up line by line, and each line does to it what it does to the
reader. That no other layout has the same lines is a matter of the lines alone.
-/

namespace BytecodeCoverage

/-! ## Layouts -/

/-- No line is a header. -/
def IsNoise (lines : List String) : Prop := ∀ line ∈ lines, isHeader line = false

/-- A header and what follows it up to the first end marker. -/
def IsRecord (lines : List String) : Prop :=
  ∃ header body finish, lines = header :: (body ++ [finish]) ∧ isHeader header ∧
    (∀ line ∈ body, isEndMarker line = false) ∧ isEndMarker finish

/-- A header, and no end marker after it. -/
def IsUnclosed (lines : List String) : Prop :=
  ∃ header body, lines = header :: body ∧ isHeader header ∧
    ∀ line ∈ body, isEndMarker line = false

/-- A record with the noise before it. -/
@[ext]
structure Part where
  noise : List String
  record : List String
  deriving Repr, DecidableEq

structure Layout where
  parts : List Part := []
  /-- The noise after the last record. -/
  noise : List String := []
  /-- The record that is not closed, if there is one. -/
  tail : List String := []
  deriving Repr, DecidableEq

namespace Layout

variable {l l' : Layout}

def records (l : Layout) : List (List String) := l.parts.map (·.record)

/-- The lines that are laid out. -/
def lines (l : Layout) : List String :=
  (l.parts.flatMap fun part => part.noise ++ part.record) ++ (l.noise ++ l.tail)

/-- Each part is what it is called. -/
structure Valid (l : Layout) : Prop where
  noises : ∀ part ∈ l.parts, IsNoise part.noise
  records : ∀ part ∈ l.parts, IsRecord part.record
  noise : IsNoise l.noise
  tail : l.tail ≠ [] → IsUnclosed l.tail

/-! ## Line by line -/

/-- The layout with one more line. -/
def push (l : Layout) (line : String) : Layout :=
  if l.tail = [] then
    if isHeader line then { l with tail := [line] }
    else { l with noise := l.noise ++ [line] }
  else if isEndMarker line then { parts := l.parts ++ [⟨l.noise, l.tail ++ [line]⟩] }
  else { l with tail := l.tail ++ [line] }

/-- The layout of some lines. -/
def ofLines (lines : List String) : Layout := lines.foldl push {}

theorem lines_push (l : Layout) (line : String) : (l.push line).lines = l.lines ++ [line] := by
  unfold push
  split
  · rename_i htail
    split
    · simp [lines, htail]
    · simp [lines, htail]
  · split
    · simp [lines]
    · simp [lines]

theorem lines_foldl_push (l : Layout) (lines : List String) :
    (lines.foldl push l).lines = l.lines ++ lines := by
  induction lines generalizing l with
  | nil => exact (List.append_nil _).symm
  | cons line rest ih => rw [List.foldl_cons, ih, lines_push, List.append_assoc]; rfl

theorem lines_ofLines (lines : List String) : (ofLines lines).lines = lines :=
  lines_foldl_push {} lines

theorem valid_empty : ({} : Layout).Valid := ⟨nofun, nofun, nofun, fun h => absurd rfl h⟩

/-- What holds of all members and of one more holds of all with that one at the end. -/
theorem forall_mem_concat {α : Type} {p : α → Prop} {as : List α} {a : α} (has : ∀ x ∈ as, p x)
    (ha : p a) : ∀ x ∈ as ++ [a], p x :=
  List.forall_mem_append.2 ⟨has, List.forall_mem_singleton.2 ha⟩

theorem Valid.push (h : l.Valid) (line : String) : (l.push line).Valid := by
  unfold Layout.push
  split
  · split
    · rename_i hheader
      exact ⟨h.noises, h.records, h.noise, fun _ => ⟨line, [], rfl, hheader, nofun⟩⟩
    · rename_i htail hheader
      have hnoise : IsNoise (l.noise ++ [line]) :=
        forall_mem_concat h.noise (Bool.eq_false_iff.2 hheader)
      exact ⟨h.noises, h.records, hnoise, fun hne => absurd htail hne⟩
  · rename_i htail
    obtain ⟨header, body, hlines, hheader, hbody⟩ := h.tail htail
    split
    · rename_i hend
      have hrecord : IsRecord (l.tail ++ [line]) :=
        ⟨header, body, line, by simp [hlines], hheader, hbody, hend⟩
      exact ⟨forall_mem_concat h.noises h.noise, forall_mem_concat h.records hrecord, nofun,
        fun hne => absurd rfl hne⟩
    · rename_i hend
      have hopen := forall_mem_concat hbody (Bool.eq_false_iff.2 hend)
      exact ⟨h.noises, h.records, h.noise,
        fun _ => ⟨header, body ++ [line], by simp [hlines], hheader, hopen⟩⟩

theorem valid_ofLines (lines : List String) : (ofLines lines).Valid :=
  List.foldlRecOn lines Layout.push valid_empty fun _ h line _ => h.push line

/-! ## In step with the reader -/

/-- The reader that has read the lines. -/
def reader (l : Layout) : RecordReader := ⟨if l.tail = [] then none else some l.tail.toArray⟩

/-- The records that do not begin with a sentinel. -/
def kept (d : Dialect) (l : Layout) : List (List String) :=
  l.records.filter fun record => record.headD "" ∉ d.sentinelHeaders

theorem inRecord_reader (l : Layout) : l.reader.inRecord = true ↔ l.tail ≠ [] := by
  simp [reader, RecordReader.inRecord]

/-- A line does to the layout what it does to the reader. -/
theorem step_reader (d : Dialect) (l : Layout) (line : String) :
    (l.reader.step d line).1 = (l.push line).reader ∧
      (l.push line).kept d = l.kept d ++ (l.reader.step d line).2.toList := by
  unfold push
  split
  · rename_i htail
    split
    · rename_i hheader
      simp [reader, RecordReader.step, RecordReader.close, htail, hheader, kept, records]
    · rename_i hheader
      simp [reader, RecordReader.step, RecordReader.close, htail, hheader, kept, records]
  · rename_i htail
    obtain ⟨header, body, hlines⟩ := List.exists_cons_of_ne_nil htail
    split
    · rename_i hend
      by_cases hsentinel : header ∈ d.sentinelHeaders
      · simp [reader, RecordReader.step, RecordReader.close, hlines, hend, kept, records,
          Dialect.isSentinel, Option.filter_some, hsentinel]
      · simp [reader, RecordReader.step, RecordReader.close, hlines, hend, kept, records,
          Dialect.isSentinel, Option.filter_some, hsentinel]
    · rename_i hend
      simp [reader, RecordReader.step, RecordReader.close, hlines, hend, kept, records]

theorem records_reader (d : Dialect) (l : Layout) (lines : List String) :
    (l.reader.records d lines).1 = (lines.foldl push l).reader ∧
      (lines.foldl push l).kept d = l.kept d ++ (l.reader.records d lines).2 := by
  induction lines generalizing l with
  | nil => exact ⟨rfl, (List.append_nil _).symm⟩
  | cons line rest ih =>
    obtain ⟨hreader, hkept⟩ := step_reader d l line
    obtain ⟨hlast, hmore⟩ := ih (l.push line)
    rw [RecordReader.records, List.foldl_cons]
    simp only [hreader]
    exact ⟨hlast, by rw [hmore, hkept, List.append_assoc]⟩

/-! ## No other layout -/

/-- A list is cut in one way in front of the first member that has a property. -/
theorem cut_unique {α : Type} {p : α → Bool} {run run' rest rest' : List α}
    (hrun : ∀ x ∈ run, p x = false) (hrun' : ∀ x ∈ run', p x = false)
    (hrest : ∀ x, rest.head? = some x → p x) (hrest' : ∀ x, rest'.head? = some x → p x)
    (h : run ++ rest = run' ++ rest') : run = run' ∧ rest = rest' := by
  induction run generalizing run' with
  | nil =>
    cases run' with
    | nil => exact ⟨rfl, h⟩
    | cons x run' =>
      have hx : p x := hrest x (by rw [← List.nil_append rest, h]; rfl)
      rw [hrun' x (.head _)] at hx
      cases hx
  | cons x run ih =>
    cases run' with
    | nil =>
      have hx : p x := hrest' x (by rw [← List.nil_append rest', ← h]; rfl)
      rw [hrun x (.head _)] at hx
      cases hx
    | cons y run' =>
      obtain ⟨rfl, hmore⟩ := List.cons.inj h
      obtain ⟨rfl, rfl⟩ := ih (fun z hz => hrun z (.tail _ hz))
        (fun z hz => hrun' z (.tail _ hz)) hmore
      exact ⟨rfl, rfl⟩

theorem isHeader_of_head? {rest : List String} (h : IsRecord rest ∨ IsUnclosed rest)
    (more : List String) (x : String) (hx : (rest ++ more).head? = some x) : isHeader x := by
  rcases h with ⟨header, body, finish, rfl, hheader, -⟩ | ⟨header, body, rfl, hheader, -⟩
  · cases hx
    exact hheader
  · cases hx
    exact hheader

theorem record_unique {record record' rest rest' : List String} (h : IsRecord record)
    (h' : IsRecord record') (hlines : record ++ rest = record' ++ rest') :
    record = record' ∧ rest = rest' := by
  obtain ⟨header, body, finish, rfl, -, hbody, hfinish⟩ := h
  obtain ⟨header', body', finish', rfl, -, hbody', hfinish'⟩ := h'
  simp only [List.cons_append, List.append_assoc, List.nil_append, List.cons.injEq] at hlines
  obtain ⟨rfl, hlines⟩ := hlines
  obtain ⟨rfl, hends⟩ := cut_unique hbody hbody' (by rintro _ ⟨⟩; exact hfinish)
    (by rintro _ ⟨⟩; exact hfinish') hlines
  obtain ⟨rfl, rfl⟩ := List.cons.inj hends
  exact ⟨rfl, rfl⟩

theorem not_isUnclosed_of_isRecord {record : List String} (h : IsRecord record)
    (rest : List String) : ¬ IsUnclosed (record ++ rest) := by
  rintro ⟨header', body', hlines, -, hopen⟩
  obtain ⟨header, body, finish, rfl, -, -, hfinish⟩ := h
  obtain ⟨-, hbody⟩ := List.cons.inj hlines
  have hmem : finish ∈ body' := by
    rw [← hbody]
    simp
  rw [hopen finish hmem] at hfinish
  cases hfinish

section Parts

variable {part : Part} {parts : List Part} {noise tail noise' tail' : List String}

theorem lines_cons (part : Part) (parts : List Part) (noise tail : List String) :
    lines ⟨part :: parts, noise, tail⟩ =
      part.noise ++ (part.record ++ lines ⟨parts, noise, tail⟩) := by
  simp [lines]

theorem Valid.of_cons (h : Valid ⟨part :: parts, noise, tail⟩) : Valid ⟨parts, noise, tail⟩ :=
  ⟨fun p hp => h.noises p (.tail _ hp), fun p hp => h.records p (.tail _ hp), h.noise, h.tail⟩

theorem Valid.isHeader_tail (h : Valid ⟨parts, noise, tail⟩) (x : String)
    (hx : tail.head? = some x) : isHeader x := by
  have hne : tail ≠ [] := by
    rintro rfl
    cases hx
  exact isHeader_of_head? (.inr (h.tail hne)) [] x (by rwa [List.append_nil])

/-- Lines that have a record are not all noise and tail. -/
theorem Valid.lines_ne (h : Valid ⟨[], noise, tail⟩) (h' : Valid ⟨part :: parts, noise', tail'⟩) :
    lines ⟨[], noise, tail⟩ ≠ lines ⟨part :: parts, noise', tail'⟩ := by
  intro hlines
  have hrecord : IsRecord part.record := h'.records part (.head _)
  rw [lines_cons] at hlines
  obtain ⟨-, htail⟩ := cut_unique h.noise (h'.noises part (.head _)) h.isHeader_tail
    (isHeader_of_head? (.inl hrecord) _) hlines
  have hne : tail ≠ [] := by
    rw [htail]
    obtain ⟨header, body, finish, hlines, -⟩ := hrecord
    simp [hlines]
  have hunclosed : IsUnclosed tail := h.tail hne
  rw [htail] at hunclosed
  exact not_isUnclosed_of_isRecord hrecord _ hunclosed

end Parts

/-- By induction on the parts: the first noise ends at the first header, and a record that begins
there ends at the first end marker after it. -/
theorem Valid.unique (h : l.Valid) (h' : l'.Valid) (hlines : l.lines = l'.lines) : l = l' := by
  obtain ⟨parts, noise, tail⟩ := l
  obtain ⟨parts', noise', tail'⟩ := l'
  induction parts generalizing parts' with
  | nil =>
    cases parts' with
    | nil =>
      obtain ⟨rfl, rfl⟩ := cut_unique h.noise h'.noise h.isHeader_tail h'.isHeader_tail hlines
      rfl
    | cons part' parts' => exact absurd hlines (h.lines_ne h')
  | cons part parts ih =>
    cases parts' with
    | nil => exact absurd hlines.symm (h'.lines_ne h)
    | cons part' parts' =>
      have hrecord : IsRecord part.record := h.records part (.head _)
      have hrecord' : IsRecord part'.record := h'.records part' (.head _)
      rw [lines_cons, lines_cons] at hlines
      obtain ⟨hnoise, hmore⟩ := cut_unique (h.noises part (.head _)) (h'.noises part' (.head _))
        (isHeader_of_head? (.inl hrecord) _) (isHeader_of_head? (.inl hrecord') _) hlines
      obtain ⟨hsame, hrest⟩ := record_unique hrecord hrecord' hmore
      cases ih h.of_cons parts' h'.of_cons hrest
      rw [Part.ext hnoise hsame]

end Layout

/-- All lines have one layout. From it the reader gives, in order and as they are, the records that
do not begin with a sentinel, and it ends inside a record just if the layout has a tail. -/
theorem RecordReader.records_eq_layout (d : Dialect) (lines : List String) :
    ∃ layout : Layout, layout.Valid ∧ layout.lines = lines ∧
      (∀ other : Layout, other.Valid → other.lines = lines → other = layout) ∧
      (RecordReader.records d {} lines).2 =
        layout.records.filter (fun record => record.headD "" ∉ d.sentinelHeaders) ∧
      ((RecordReader.records d {} lines).1.inRecord = true ↔ layout.tail ≠ []) := by
  have hvalid := Layout.valid_ofLines lines
  have hlines := Layout.lines_ofLines lines
  obtain ⟨hlast, hkept⟩ := Layout.records_reader d {} lines
  refine ⟨.ofLines lines, hvalid, hlines, ?_, hkept.symm, ?_⟩
  · exact fun other hother h => hother.unique hvalid (h.trans hlines.symm)
  · rw [← Layout.inRecord_reader]
    exact hlast ▸ Iff.rfl

/-- An end marker outside a record is noise, and a header inside one is a line of it. -/
example :
    Layout.ofLines ["--- END SCRIPT", "--- SCRIPT a:1 ---", "--- SCRIPT b:1 ---", "--- END SCRIPT",
        "main:", "--- SCRIPT c:1 ---"] =
      { parts := [⟨["--- END SCRIPT"],
          ["--- SCRIPT a:1 ---", "--- SCRIPT b:1 ---", "--- END SCRIPT"]⟩]
        noise := ["main:"]
        tail := ["--- SCRIPT c:1 ---"] } := by
  decide +kernel

end BytecodeCoverage
