-- SUMMARY: A line that is put together from fields is read as those fields.
import BytecodeCoverage.Proofs.Text.Joining
import BytecodeCoverage.Proofs.Text.Runs
import BytecodeCoverage.Trace.Row
import Mathlib.Data.List.TakeWhile

/-!
# Fields of a line

The reader of a field takes the longest run of characters of its kind. In a line that is put
together from fields, the character after a field is of another kind, so the run is the field. The
kinds differ enough for that: no blank is a digit, and no digit, slash or blank is a colon.
-/

namespace BytecodeCoverage

open Text

/-! ## Runs of characters -/

section Runs

variable {kind : Char → Bool} {run rest : List Char}

/-- A run of characters of a kind does not go on here. -/
def Stops (kind : Char → Bool) (rest : List Char) : Prop := ∀ c, rest.head? = some c → kind c = false

theorem takeWhile_append (hrun : ∀ c ∈ run, kind c) (hrest : Stops kind rest) :
    (run ++ rest).takeWhile kind = run := by
  rw [List.takeWhile_append_of_pos hrun]
  cases rest with
  | nil => exact List.append_nil run
  | cons c rest => rw [List.takeWhile_cons_of_neg (by simp [hrest c rfl]), List.append_nil]

theorem dropWhile_append (hrun : ∀ c ∈ run, kind c) (hrest : Stops kind rest) :
    (run ++ rest).dropWhile kind = rest := by
  rw [List.dropWhile_append_of_pos hrun]
  cases rest with
  | nil => rfl
  | cons c rest => rw [List.dropWhile_cons_of_neg (by simp [hrest c rfl])]

theorem stops_cons {c : Char} (h : kind c = false) (rest : List Char) :
    Stops kind (c :: rest) := by
  rintro _ ⟨⟩
  exact h

/-- A text that does not begin with a character of a kind is stopped by what begins it. -/
theorem stops_append {other : Char → Bool} (hkinds : ∀ c, other c → kind c = false)
    (hrun : ∀ c ∈ run, other c) (hne : run ≠ []) (rest : List Char) :
    Stops kind (run ++ rest) := by
  obtain ⟨c, more, rfl⟩ := List.exists_cons_of_ne_nil hne
  exact stops_cons (hkinds c (hrun c (.head _))) _

end Runs

/-! ## Kinds of characters -/

/-- No code point is both a blank's and a digit's. -/
theorem isDigit_of_isBlank {c : Char} (h : isBlank c) : isDigit c = false := by
  have hapart : ∀ range ∈ blankRanges, ∀ z ∈ digitZeros,
      range.2 < z ∨ z + 10 ≤ range.1 := by decide
  obtain ⟨range, hrange, hlow, hhigh⟩ := inRanges_iff.1 h
  rw [isDigit, digitValue?, Option.isSome_map, Option.isSome_eq_false_iff,
    Option.isNone_iff_eq_none, List.find?_eq_none]
  intro z hz hdigit
  simp only [Bool.and_eq_true, decide_eq_true_eq] at hdigit
  have := hapart range hrange z hz
  omega

theorem isBlank_of_isDigit {c : Char} (h : isDigit c) : isBlank c = false := by
  cases hblank : isBlank c with
  | false => rfl
  | true => simp [isDigit_of_isBlank hblank] at h

theorem digitValue?_of_ascii {c : Char} (h : c.isDigit) : digitValue? c = some (c.toNat - 48) := by
  simp only [Char.isDigit, Bool.and_eq_true, decide_eq_true_eq] at h
  exact digitValue?_ascii ⟨h.1, Nat.lt_succ_of_le h.2⟩

theorem isDigit_of_ascii {c : Char} (h : c.isDigit) : isDigit c := by
  rw [isDigit, digitValue?_of_ascii h]
  rfl

/-! ## Fields -/

section Fields

variable {rest : List Char}

theorem after?_append (lead rest : List Char) : after? lead (lead ++ rest) = some rest :=
  after?_eq_some_iff.2 rfl

theorem after?_singleton (c : Char) (rest : List Char) : after? [c] (c :: rest) = some rest :=
  after?_append [c] rest

theorem digits?_append {digits : List Char} (hne : digits ≠ []) (hdigits : ∀ c ∈ digits, isDigit c)
    (hrest : Stops isDigit rest) : digits? (digits ++ rest) = some (digits, rest) := by
  rw [digits?, takeWhile_append hdigits hrest, dropWhile_append hdigits hrest, if_neg hne]

theorem blanks?_append {blanks : List Char} (hne : blanks ≠ []) (hblanks : ∀ c ∈ blanks, isBlank c)
    (hrest : Stops isBlank rest) : blanks? (blanks ++ rest) = some rest := by
  rw [blanks?, takeWhile_append hblanks hrest, dropWhile_append hblanks hrest, if_neg hne]

/-- Between three or more runs of digits, slashes alone tell where one ends. -/
theorem counts?_append {first second third : List Char} {more : List (List Char)}
    (hruns : ∀ run ∈ first :: second :: third :: more, run ≠ [] ∧ ∀ c ∈ run, isDigit c)
    (hrest : Stops (fun c => isDigit c || c = '/') rest) :
    counts? (['/'].intercalate (first :: second :: third :: more) ++ rest) =
      some (first :: second :: third :: more, rest) := by
  have hslash : ∀ run ∈ first :: second :: third :: more, '/' ∉ run := by
    intro run hrun hmem
    have hdigit := (hruns run hrun).2 '/' hmem
    exact absurd hdigit (by decide)
  have hparts : ∀ c ∈ ['/'].intercalate (first :: second :: third :: more),
      (isDigit c || c = '/') = true := by
    intro c hc
    rcases mem_of_mem_intercalate hc with rfl | ⟨run, hrun, hmem⟩
    · rfl
    · rw [(hruns run hrun).2 c hmem, Bool.true_or]
  have hall : (first :: second :: third :: more).all (· ≠ []) := by
    rw [List.all_eq_true]
    exact fun run hrun => decide_eq_true (hruns run hrun).1
  rw [counts?]
  simp only [takeWhile_append hparts hrest, dropWhile_append hparts hrest,
    pieces_intercalate hslash]
  exact if_pos ⟨by simp, hall⟩

theorem lineText?_of_oneLine {text : List Char} (h : '\n' ∉ text) : lineText? text = some text := by
  have hchars : ∀ c ∈ text, decide (c ≠ '\n') = true := by
    intro c hc
    exact decide_eq_true (ne_of_mem_of_not_mem hc h)
  have htake : text.takeWhile (· ≠ '\n') = text := List.takeWhile_eq_self_iff.2 hchars
  have hdrop : text.dropWhile (· ≠ '\n') = [] := List.dropWhile_eq_nil_iff.2 hchars
  rw [lineText?]
  simp only [htake, hdrop, true_or, if_true]

/-- The last colon before the digits ends the file name, whatever colons are in it. -/
theorem header?_append {file digits : List Char} (hfile : '\n' ∉ file) (hne : digits ≠ [])
    (hdigits : ∀ c ∈ digits, isDigit c) :
    header? ("--- SCRIPT ".toList ++ (file ++ ':' :: (digits ++ " ---".toList))) =
      some (file, digits) := by
  have hwhole : dropFinalNewline
      ("--- SCRIPT ".toList ++ (file ++ ':' :: (digits ++ " ---".toList))) =
        "--- SCRIPT ".toList ++ (file ++ ':' :: (digits ++ " ---".toList)) := by
    have hlast : ("--- SCRIPT ".toList ++ (file ++ ':' :: (digits ++ " ---".toList))).getLast? =
        some '-' := by simp [List.getLast?_append, List.getLast?_cons]
    rw [dropFinalNewline, hlast]
    rfl
  have hback : (file ++ ':' :: (digits ++ " ---".toList)).reverse =
      "--- ".toList ++ (digits.reverse ++ ':' :: file.reverse) := by simp
  have hreverse : ∀ c ∈ digits.reverse, isDigit c := fun c hc => hdigits c (List.mem_reverse.1 hc)
  have hcolon : Stops isDigit (':' :: file.reverse) := stops_cons (by decide) _
  simp only [header?, hwhole, after?_append, hback, Option.bind_eq_bind, Option.bind_some,
    takeWhile_append hreverse hcolon, dropWhile_append hreverse hcolon]
  rw [if_pos ⟨by simpa using hne, by simpa using hfile⟩, List.reverse_reverse, List.reverse_reverse]

end Fields

/-! ## Lines that begin otherwise -/

theorem prefix_of_header? {line : List Char} {found : List Char × List Char}
    (h : header? line = some found) : "--- SCRIPT ".toList <+: line := by
  simp only [header?, Option.bind_eq_bind, Option.bind_eq_some_iff] at h
  obtain ⟨rest, hrest, -⟩ := h
  have hlead : "--- SCRIPT ".toList <+: dropFinalNewline line :=
    ⟨rest, (after?_eq_some_iff.1 hrest).symm⟩
  exact hlead.trans (prefix_dropFinalNewline line)

/-- A header and an end marker begin with a dash. -/
theorem header?_of_head? {line : List Char} {c : Char} (hhead : line.head? = some c)
    (hc : c ≠ '-') : header? line = none := by
  cases hheader : header? line with
  | none => rfl
  | some found =>
    obtain ⟨rest, rfl⟩ := prefix_of_header? hheader
    cases hhead
    exact absurd rfl hc

theorem isEndMarker_of_head? {line : String} {c : Char} (hhead : line.toList.head? = some c)
    (hc : c ≠ '-') : isEndMarker line = false := by
  rw [isEndMarker, Option.isSome_eq_false_iff, Option.isNone_iff_eq_none]
  cases hmarker : after? "--- END SCRIPT".toList line.toList with
  | none => rfl
  | some rest =>
    rw [after?_eq_some_iff.1 hmarker] at hhead
    cases hhead
    exact absurd rfl hc

end BytecodeCoverage
