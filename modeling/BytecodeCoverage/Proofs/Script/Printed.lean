-- SUMMARY: A record that is printed in the trace grammar is read as what was printed.
import BytecodeCoverage.Proofs.Script.Records
import BytecodeCoverage.Proofs.Trace.Fields

/-!
# Printed records

The trace grammar leaves much open: how wide numbers are, what the blanks between fields are, how
many counts there are, what stands behind the end marker. A printed record is a record with a choice
for each of these. Whatever the choices are, the script that is built from the lines of the record
is the one that was printed.
-/

namespace BytecodeCoverage

open Text

-- ---------------------------------------------------------------------------
-- What is printed
-- ---------------------------------------------------------------------------

/-- A number in decimal with zeros before it, in no more digits than are converted. -/
structure PrintedNumber where
  value : Nat
  zeros : Nat := 0
  fits : zeros + (Nat.toDigits 10 value).length ≤ Numeral.digitLimit := by decide

def PrintedNumber.digits (n : PrintedNumber) : List Char :=
  List.replicate n.zeros '0' ++ Nat.toDigits 10 n.value

/-- The white space between two fields of a line. -/
structure Gap where
  blanks : List Char
  ne_nil : blanks ≠ []
  isBlank : ∀ c ∈ blanks, isBlank c ∧ c ≠ '\n'

def Gap.space : Gap where
  blanks := [' ']
  ne_nil := List.cons_ne_nil _ _
  isBlank := List.forall_mem_singleton.2 (by decide)

/-- A line that continues the text of an instruction, told without the tab that it starts with. -/
structure Continuation where
  text : String
  oneLine : '\n' ∉ text.toList := by decide

def Continuation.line (c : Continuation) : String := "\t" ++ c.text

structure PrintedInstruction where
  address : PrintedNumber
  /-- The counts of executions. -/
  first : PrintedNumber
  second : PrintedNumber
  third : PrintedNumber
  /-- Counts of other events. -/
  auxiliary : List PrintedNumber := []
  sourceLine : PrintedNumber
  text : String
  continuations : List Continuation := []
  beforeMark : Gap := .space
  afterMark : Gap := .space
  beforeText : Gap := .space
  oneLine : '\n' ∉ text.toList := by decide
  /-- Blanks before the text would belong to the gap. -/
  lead : text.toList.head?.any isBlank = false := by decide

namespace PrintedInstruction

def counts (p : PrintedInstruction) : List PrintedNumber :=
  p.first :: p.second :: p.third :: p.auxiliary

/-- The line that the instruction begins with, field by field. -/
def dataLine (p : PrintedInstruction) : String :=
  String.ofList (p.address.digits ++ ':' :: (['/'].intercalate (p.counts.map (·.digits)) ++
    (p.beforeMark.blanks ++ 'x' :: (p.afterMark.blanks ++ (p.sourceLine.digits ++
      (p.beforeText.blanks ++ p.text.toList))))))

def lines (p : PrintedInstruction) : List String := p.dataLine :: p.continuations.map (·.line)

/-- Of a text that begins with a function that is defined in place, only the mnemonic is kept. -/
def keptText (p : PrintedInstruction) : String :=
  if "lambda ".toList.isPrefixOf p.text.toList then "lambda"
  else if "deflocalfun ".toList.isPrefixOf p.text.toList then "deflocalfun"
  else p.text

def instruction (p : PrintedInstruction) : Instruction :=
  { address := p.address.value
    sourceLine := p.sourceLine.value
    text := p.keptText ++ String.join (p.continuations.map (·.line))
    count := p.first.value + p.second.value + p.third.value }

end PrintedInstruction

structure PrintedRecord where
  file : String
  startLine : PrintedNumber
  code : List PrintedInstruction
  /-- How many instructions stand before the entry marker. -/
  entry : Option (Fin (code.length + 1)) := none
  /-- What stands behind the end marker on its line. -/
  trailer : String := ""
  oneLine : '\n' ∉ file.toList := by decide

namespace PrintedRecord

def header (r : PrintedRecord) : String :=
  String.ofList ("--- SCRIPT ".toList ++ (r.file.toList ++ ':' :: (r.startLine.digits ++
    " ---".toList)))

/-- The lines between the header and the end marker. -/
def body (r : PrintedRecord) : List String :=
  match r.entry with
  | none => r.code.flatMap (·.lines)
  | some i => (r.code.take i).flatMap (·.lines) ++ "main:" :: (r.code.drop i).flatMap (·.lines)

def lines (r : PrintedRecord) : List String :=
  r.header :: r.body ++ ["--- END SCRIPT" ++ r.trailer]

def script (r : PrintedRecord) : Script :=
  { filename := r.file
    startLine := r.startLine.value
    entryIndex := r.entry.map (·.val)
    instructions := (r.code.map (·.instruction)).toArray }

end PrintedRecord

/-! ## Numbers -/

namespace PrintedNumber

variable (n : PrintedNumber)

theorem digits_ne_nil : n.digits ≠ [] := by
  rw [digits, Ne, List.append_eq_nil_iff, not_and]
  exact fun _ => Nat.toDigits_ne_nil

theorem isDigit_of_mem {c : Char} (h : c ∈ n.digits) : isDigit c := by
  rcases List.mem_append.1 h with h | h
  · rw [List.eq_of_mem_replicate h]
    decide
  · exact isDigit_of_ascii (Nat.isDigit_of_mem_toDigits (by decide) (by decide) h)

theorem digitsValue_zeros (zeros : Nat) (cs : List Char) :
    digitsValue (List.replicate zeros '0' ++ cs) = digitsValue cs := by
  induction zeros with
  | zero => rfl
  | succ k ih =>
    rw [List.replicate_succ, List.cons_append, ← ih]
    rfl

theorem digitsValue_toDigits (value : Nat) : digitsValue (Nat.toDigits 10 value) = value := by
  have hfold : digitsValue (Nat.toDigits 10 value) =
      Nat.ofDigitChars 10 (Nat.toDigits 10 value) 0 := by
    refine List.foldl_ext _ _ _ ?_
    intro sum c hc
    have hdigit := Nat.isDigit_of_mem_toDigits (by decide) (by decide) hc
    rw [digitValue?_of_ascii hdigit]
    rfl
  rw [hfold, Nat.ofDigitChars_toDigits (by decide) (by decide)]

theorem read_digits : Numeral.read n.digits = .ok n.value := by
  have hlength : n.digits.length ≤ Numeral.digitLimit := by
    rw [digits, List.length_append, List.length_replicate]
    exact n.fits
  rw [Numeral.read_eq_ok hlength, digits, digitsValue_zeros, digitsValue_toDigits]

end PrintedNumber

/-- A printed number is read up to a character that is no digit. -/
theorem PrintedNumber.digits?_append (n : PrintedNumber) {rest : List Char}
    (hrest : Stops isDigit rest) : digits? (n.digits ++ rest) = some (n.digits, rest) :=
  BytecodeCoverage.digits?_append n.digits_ne_nil (fun _ => n.isDigit_of_mem) hrest

/-! ## Gaps -/

namespace Gap

variable (gap : Gap)

theorem stops {kind : Char → Bool} (hkind : ∀ c, Text.isBlank c → kind c = false)
    (rest : List Char) : Stops kind (gap.blanks ++ rest) :=
  stops_append hkind (fun c hc => (gap.isBlank c hc).1) gap.ne_nil rest

theorem blanks?_append {rest : List Char} (hrest : Stops Text.isBlank rest) :
    blanks? (gap.blanks ++ rest) = some rest :=
  BytecodeCoverage.blanks?_append gap.ne_nil (fun c hc => (gap.isBlank c hc).1) hrest

end Gap

/-! ## Lines -/

namespace PrintedInstruction

variable (p : PrintedInstruction)

theorem counts?_append {rest : List Char} (hrest : Stops (fun c => isDigit c || c = '/') rest) :
    counts? (['/'].intercalate (p.counts.map (·.digits)) ++ rest) =
      some (p.counts.map (·.digits), rest) := by
  have hruns : ∀ run ∈ p.counts.map (·.digits), run ≠ [] ∧ ∀ c ∈ run, isDigit c := by
    intro run hrun
    obtain ⟨n, -, rfl⟩ := List.mem_map.1 hrun
    exact ⟨n.digits_ne_nil, fun c => n.isDigit_of_mem⟩
  exact BytecodeCoverage.counts?_append hruns hrest

theorem stops_text : Stops isBlank p.text.toList := by
  intro c hc
  have hlead := p.lead
  rwa [hc] at hlead

/-- The reader of the fields finds those that the line was put together from. -/
theorem dataFields?_dataLine :
    dataFields? p.dataLine.toList =
      some ⟨p.address.digits, p.counts.map (·.digits), p.sourceLine.digits, p.text.toList⟩ := by
  have hcolon : ∀ rest, Stops isDigit (':' :: rest) := fun rest => stops_cons (by decide) rest
  have hpart : ∀ c, isBlank c → (isDigit c || c = '/') = false := by
    intro c hc
    rw [isDigit_of_isBlank hc, Bool.false_or, decide_eq_false_iff_not]
    rintro rfl
    exact absurd hc (by decide)
  have hmark : ∀ rest, Stops isBlank ('x' :: rest) := fun rest => stops_cons (by decide) rest
  have hnumber : ∀ rest, Stops isBlank (p.sourceLine.digits ++ rest) := fun rest =>
    stops_append (fun _ => isBlank_of_isDigit) (fun _ => p.sourceLine.isDigit_of_mem)
      p.sourceLine.digits_ne_nil rest
  simp only [dataLine, String.toList_ofList, dataFields?, Option.bind_eq_bind, Option.bind_some,
    p.address.digits?_append (hcolon _), after?_singleton,
    p.counts?_append (p.beforeMark.stops hpart _), p.beforeMark.blanks?_append (hmark _),
    p.afterMark.blanks?_append (hnumber _),
    p.sourceLine.digits?_append (p.beforeText.stops (fun _ => isDigit_of_isBlank) _),
    p.beforeText.blanks?_append p.stops_text, lineText?_of_oneLine p.oneLine]

theorem head?_dataLine : ∃ c, p.dataLine.toList.head? = some c ∧ isDigit c := by
  obtain ⟨c, rest, hdigits⟩ := List.exists_cons_of_ne_nil p.address.digits_ne_nil
  refine ⟨c, ?_, p.address.isDigit_of_mem (hdigits ▸ .head _)⟩
  rw [dataLine, String.toList_ofList, hdigits]
  rfl

theorem executionCount_counts :
    executionCount (p.counts.map (·.digits)) =
      .ok (p.first.value + p.second.value + p.third.value) := by
  simp only [executionCount, counts, List.map_cons, List.take_succ_cons, List.take_zero,
    List.foldlM_cons, List.foldlM_nil, PrintedNumber.read_digits]
  simp [Except.map, bind, Except.bind, pure, Except.pure]

theorem instructionText_text : Dialect.instructionText {} p.text = p.keptText := by
  have hlambda : "lambda".toList ++ [' '] = "lambda ".toList := rfl
  have hfunction : "deflocalfun".toList ++ [' '] = "deflocalfun ".toList := rfl
  simp only [Dialect.instructionText, keptText, List.find?_cons, List.find?_nil, hlambda, hfunction]
  cases "lambda ".toList.isPrefixOf p.text.toList with
  | true => rfl
  | false =>
    cases "deflocalfun ".toList.isPrefixOf p.text.toList with
    | true => rfl
    | false => rfl

theorem read_dataLine :
    Row.read {} p.dataLine = .ok (.data p.address.value p.sourceLine.value
      (p.first.value + p.second.value + p.third.value) p.keptText) := by
  obtain ⟨c, hhead, hdigit⟩ := p.head?_dataLine
  have hdash : c ≠ '-' := by
    rintro rfl
    exact absurd hdigit (by decide)
  have hentry : p.dataLine ≠ "main:" := by
    intro hline
    rw [hline] at hhead
    cases hhead
    exact absurd hdigit (by decide)
  unfold Row.read
  rw [header?_of_head? hhead hdash]
  simp only [isEndMarker_of_head? hhead hdash, Bool.false_eq_true, if_false, if_neg hentry,
    p.dataFields?_dataLine, DataFields.toRow, PrintedNumber.read_digits, p.executionCount_counts,
    String.ofList_toList, p.instructionText_text]
  rfl

end PrintedInstruction

/-- A line that starts with a tab is of no other kind. -/
theorem Continuation.read_line (c : Continuation) :
    Row.read {} c.line = .ok (.continuation c.line) := by
  have hhead : c.line.toList.head? = some '\t' := by simp [line]
  have hfields : dataFields? c.line.toList = none := by
    have hdigit : isDigit '\t' = false := by decide
    simp [line, dataFields?, digits?, hdigit]
  have hentry : c.line ≠ "main:" := by
    intro hline
    rw [hline] at hhead
    cases hhead
  unfold Row.read
  rw [header?_of_head? hhead (by decide)]
  simp only [isEndMarker_of_head? hhead (by decide), Bool.false_eq_true, if_false, if_neg hentry,
    hfields, hhead, if_true]

/-! ## Drafts -/

namespace Draft

/-- The draft after more instructions. -/
def extend (d : Draft) (code : List Instruction) : Draft :=
  { d with script := { d.script with instructions := d.script.instructions ++ code.toArray } }

@[simp] theorem extend_nil (d : Draft) : d.extend [] = d := by simp [extend]

@[simp] theorem extend_extend (d : Draft) (code more : List Instruction) :
    (d.extend code).extend more = d.extend (code ++ more) := by
  simp [extend, Array.append_assoc]

theorem continueText_extend (d : Draft) (ins : Instruction) (text : String) :
    (d.extend [ins]).continueText text = d.extend [{ ins with text := ins.text ++ text }] := by
  have hcode : (d.script.instructions.push ins).modify d.script.instructions.size
      (fun i => { i with text := i.text ++ text }) =
        d.script.instructions.push { ins with text := ins.text ++ text } := by
    refine Array.ext_getElem? fun i => ?_
    rw [Array.getElem?_modify, Array.getElem?_push, Array.getElem?_push]
    by_cases hi : i = d.script.instructions.size
    · simp [hi]
    · rw [if_neg (Ne.symm hi), if_neg hi, if_neg hi]
  simpa [continueText, extend] using hcode

variable (d : Draft) (rest : List String)

/-- Each continuation line is added to the text of the instruction that was read last. -/
theorem addLines_continuations (ins : Instruction) (more : List Continuation) :
    (d.extend [ins]).addLines {} .identity (more.map (·.line) ++ rest) =
      (d.extend [{ ins with text := ins.text ++ String.join (more.map (·.line)) }]).addLines {}
        .identity rest := by
  induction more generalizing ins with
  | nil => simp
  | cons c more ih =>
    have hrow : (d.extend [ins]).addRow .identity (.continuation c.line) =
        .ok (d.extend [{ ins with text := ins.text ++ c.line }]) := by
      rw [← continueText_extend]
      simp [addRow, extend]
    rw [List.map_cons, List.cons_append, addLines_cons c.read_line hrow, ih]
    simp [String.append_assoc]

theorem addLines_instruction (p : PrintedInstruction) :
    d.addLines {} .identity (p.lines ++ rest) =
      (d.extend [p.instruction]).addLines {} .identity rest := by
  have hrow : d.addRow .identity (.data p.address.value p.sourceLine.value
      (p.first.value + p.second.value + p.third.value) p.keptText) =
        .ok (d.extend [{ p.instruction with text := p.keptText }]) := by
    simp [addRow, extend, PrintedInstruction.instruction, Relocation.identity]
  rw [PrintedInstruction.lines, List.cons_append, addLines_cons p.read_dataLine hrow,
    addLines_continuations]
  rfl

theorem addLines_code (code : List PrintedInstruction) :
    d.addLines {} .identity (code.flatMap (·.lines) ++ rest) =
      (d.extend (code.map (·.instruction))).addLines {} .identity rest := by
  induction code generalizing d with
  | nil => simp
  | cons p code ih =>
    rw [List.flatMap_cons, List.append_assoc, addLines_instruction, ih, extend_extend]
    rfl

end Draft

/-! ## Records -/

theorem read_entry : Row.read {} "main:" = .ok .entry := by decide +kernel

theorem read_endLine (trailer : String) :
    Row.read {} ("--- END SCRIPT" ++ trailer) = .ok .finish := by
  have hmarker : isEndMarker ("--- END SCRIPT" ++ trailer) = true := by
    rw [isEndMarker, String.toList_append, after?_append]
    rfl
  have hheader : header? ("--- END SCRIPT" ++ trailer).toList = none := by
    refine Option.eq_none_iff_forall_ne_some.2 fun found hfound => ?_
    have hlead := prefix_of_header? hfound
    rw [String.toList_append] at hlead
    -- The two begin with different words.
    exact absurd (List.prefix_of_prefix_length_le hlead (List.prefix_append _ _) (by decide))
      (by decide)
  unfold Row.read
  rw [hheader]
  simp only [hmarker, if_true]

namespace PrintedRecord

variable (r : PrintedRecord)

theorem read_header : Row.read {} r.header = .ok (.header r.file r.startLine.value) := by
  have hheader : header? r.header.toList = some (r.file.toList, r.startLine.digits) := by
    have hdigits : ∀ c ∈ r.startLine.digits, isDigit c := fun _ => r.startLine.isDigit_of_mem
    have hline : r.header.toList = "--- SCRIPT ".toList ++
        (r.file.toList ++ ':' :: (r.startLine.digits ++ " ---".toList)) := String.toList_ofList
    rw [hline]
    exact header?_append r.oneLine r.startLine.digits_ne_nil hdigits
  unfold Row.read
  rw [hheader]
  simp only [r.startLine.read_digits, Except.map, String.ofList_toList]

/-- The draft of which the header has been read. -/
def opened (r : PrintedRecord) : Draft := .opened r.file r.startLine.value

/-- The instructions are read in order, and the entry marker tells how many stand before it. -/
theorem addLines_body (rest : List String) :
    r.opened.addLines {} .identity (r.body ++ rest) =
      Draft.addLines {} .identity { r.opened with script := r.script } rest := by
  unfold body script
  cases r.entry with
  | none =>
    rw [Draft.addLines_code]
    simp [Draft.extend, opened, Draft.opened]
  | some i =>
    have hcount : min i.val r.code.length = i := by omega
    have hsplit : r.code.map (·.instruction) =
        (r.code.take i).map (·.instruction) ++ (r.code.drop i).map (·.instruction) := by
      rw [← List.map_append, List.take_append_drop]
    have hentry : (r.opened.extend ((r.code.take i).map (·.instruction))).addRow .identity .entry =
        .ok (({ r.opened with script := { r.opened.script with entryIndex := some i.val } }
          : Draft).extend ((r.code.take i).map (·.instruction))) := by
      simp [Draft.addRow, Draft.extend, opened, Draft.opened, hcount]
    rw [List.append_assoc, Draft.addLines_code, List.cons_append,
      Draft.addLines_cons read_entry hentry, Draft.addLines_code, Draft.extend_extend, ← hsplit]
    simp [Draft.extend, opened, Draft.opened]

/-- Whatever was chosen in printing it, the lines of a record are built to the script that was
printed. -/
theorem ofRecord_lines : Script.ofRecord {} .identity r.lines = .ok r.script := by
  have hopen : Draft.addRow .identity {} (.header r.file r.startLine.value) = .ok r.opened := rfl
  have hclose : Draft.addRow .identity { r.opened with script := r.script } .finish =
      .ok { r.opened with script := r.script } := rfl
  rw [Script.ofRecord, lines, List.cons_append, Draft.addLines_cons r.read_header hopen,
    addLines_body, Draft.addLines_cons (read_endLine r.trailer) hclose]
  rfl

example :
    let jump : PrintedInstruction :=
      { address := { value := 0, zeros := 3 }, first := { value := 12 }, second := { value := 0 },
        third := { value := 1 }, auxiliary := [{ value := 9 }], sourceLine := { value := 4 },
        text := "lambda (x)", continuations := [{ text := "0: pop" }] }
    let record : PrintedRecord :=
      { file := "c:/a.js", startLine := { value := 3 }, code := [jump], entry := some 1 }
    record.lines = ["--- SCRIPT c:/a.js:3 ---", "0000:12/0/1/9 x 4 lambda (x)", "\t0: pop", "main:",
      "--- END SCRIPT"] := by
  decide +kernel

end PrintedRecord

end BytecodeCoverage
