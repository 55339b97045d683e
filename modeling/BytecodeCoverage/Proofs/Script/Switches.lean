-- SUMMARY: A switch that is printed over several lines leads to the targets that were printed.
import BytecodeCoverage.Proofs.Script.Printed
import BytecodeCoverage.Proofs.Script.Translation
import BytecodeCoverage.Proofs.Script.Unresolved

/-!
# Printed switches

A switch is printed with its default offset in the first line and with a line for each of its cases.
Nothing marks the offset of a case but that its line ends with it, and the label before it may look
like an offset itself. What is read are the offsets that were printed, in their order, and they lead
to the instructions at these distances from the switch.
-/

namespace BytecodeCoverage

open Text

-- ---------------------------------------------------------------------------
-- What is printed
-- ---------------------------------------------------------------------------

structure PrintedCase where
  label : String
  offset : Int
  oneLine : '\n' ∉ label.toList := by decide
  oneField : '\t' ∉ label.toList := by decide

def PrintedCase.text (c : PrintedCase) : String := c.label ++ ": " ++ toString c.offset

def PrintedCase.line (c : PrintedCase) : String := "\t" ++ c.text

structure PrintedSwitch where
  word : String
  default : Int
  low : Int
  high : Int
  cases : List PrintedCase
  isSwitch : word ∈ switches := by decide

namespace PrintedSwitch

/-- The first line, from the mnemonic on. -/
def text (sw : PrintedSwitch) : String :=
  sw.word ++ " defaultOffset " ++ toString sw.default ++ " low " ++ toString sw.low ++ " high " ++
    toString sw.high

def caseLines (sw : PrintedSwitch) : List String := sw.cases.map (·.line)

def offsets (sw : PrintedSwitch) : List Int := sw.default :: sw.cases.map (·.offset)

/-- The addresses that a switch at the address leads to. -/
def targets (sw : PrintedSwitch) (address : Int) : List Int := sw.offsets.map (address + ·)

end PrintedSwitch

/-! ## Signed numbers -/

namespace SignedDigits

section Fields

variable {d : SignedDigits} {rest : List Char}

/-- The digits with the sign before them. -/
def text (d : SignedDigits) : List Char := if d.negative then '-' :: d.digits else d.digits

/-- The digits are digits, and there is one at least. -/
structure IsNumber (d : SignedDigits) : Prop where
  ne_nil : d.digits ≠ []
  isDigit : ∀ c ∈ d.digits, isDigit c

theorem IsNumber.stops_minus (h : d.IsNumber) (rest : List Char) :
    Stops (· = '-') (d.digits ++ rest) := by
  have hkinds : ∀ c, Text.isDigit c → decide (c = '-') = false := by
    intro c hc
    rw [decide_eq_false_iff_not]
    rintro rfl
    exact absurd hc (by decide)
  exact stops_append hkinds h.isDigit h.ne_nil rest

/-- A number is read from its sign up to the first character that is no digit. -/
theorem IsNumber.signedDigits?_append (h : d.IsNumber) (hrest : Stops Text.isDigit rest) :
    signedDigits? (d.text ++ rest) = some d := by
  obtain ⟨negative, digits⟩ := d
  have hrun : (digits ++ rest).takeWhile Text.isDigit = digits := takeWhile_append h.isDigit hrest
  have hfound : ∀ sign, (if (digits ++ rest).takeWhile Text.isDigit = [] then none
      else some ⟨sign, (digits ++ rest).takeWhile Text.isDigit⟩) =
        some (⟨sign, digits⟩ : SignedDigits) := by
    intro sign
    rw [hrun, if_neg h.ne_nil]
  cases negative with
  | true => exact hfound true
  | false =>
    change signedDigits? (digits ++ rest) = _
    unfold signedDigits?
    split
    rename_i hsign
    split at hsign
    · rename_i hminus
      simpa [hminus] using h.stops_minus rest '-'
    · cases hsign
      exact hfound false

theorem IsNumber.not_mem_text (h : d.IsNumber) {c : Char} (hdigit : Text.isDigit c = false)
    (hminus : c ≠ '-') : c ∉ d.text := by
  have hdigits : c ∉ d.digits := by
    intro hc
    rw [h.isDigit c hc] at hdigit
    cases hdigit
  rw [text]
  split
  · exact List.not_mem_cons_of_ne_of_not_mem hminus hdigits
  · exact hdigits

/-- A number that ends a line is read backwards, up to what stands before its sign. -/
theorem IsNumber.caseOffset?_append (h : d.IsNumber) {label : List Char} (hlabel : '\n' ∉ label) :
    caseOffset? (label ++ ':' :: ' ' :: d.text) = some d := by
  obtain ⟨negative, digits⟩ := d
  have hnewline : '\n' ∉ label ++ ':' :: ' ' :: text ⟨negative, digits⟩ := by
    simpa [hlabel] using h.not_mem_text (c := '\n') (by decide) (by decide)
  have hwhole : dropFinalNewline (label ++ ':' :: ' ' :: text ⟨negative, digits⟩) =
      label ++ ':' :: ' ' :: text ⟨negative, digits⟩ :=
    if_neg fun hlast => hnewline (List.mem_of_getLast? hlast)
  have hdigits : ∀ c ∈ digits.reverse, Text.isDigit c := fun c hc =>
    h.isDigit c (List.mem_reverse.1 hc)
  unfold caseOffset?
  rw [hwhole]
  cases negative with
  | true =>
    have hback : (label ++ ':' :: ' ' :: text ⟨true, digits⟩).reverse =
        digits.reverse ++ '-' :: ' ' :: ':' :: label.reverse := by simp [text]
    have hminus : Stops Text.isDigit ('-' :: ' ' :: ':' :: label.reverse) :=
      stops_cons (by decide) _
    simp only [hback, takeWhile_append hdigits hminus, dropWhile_append hdigits hminus,
      List.reverse_reverse, if_neg h.ne_nil]
    rfl
  | false =>
    have hback : (label ++ ':' :: ' ' :: text ⟨false, digits⟩).reverse =
        digits.reverse ++ ' ' :: ':' :: label.reverse := by simp [text]
    have hblank : Stops Text.isDigit (' ' :: ':' :: label.reverse) := stops_cons (by decide) _
    simp only [hback, takeWhile_append hdigits hblank, dropWhile_append hdigits hblank,
      List.reverse_reverse, if_neg h.ne_nil]
    rfl

end Fields

/-- The sign and the digits that a number is written with. -/
def ofInt (n : Int) : SignedDigits := ⟨decide (n < 0), Nat.toDigits 10 n.natAbs⟩

theorem isNumber_ofInt (n : Int) : (ofInt n).IsNumber where
  ne_nil := Nat.toDigits_ne_nil
  isDigit _ hc := isDigit_of_ascii (Nat.isDigit_of_mem_toDigits (by decide) (by decide) hc)

theorem toList_repr (n : Int) : n.repr.toList = (ofInt n).text := by
  by_cases hsign : n < 0
  · have habs : (-n).toNat = n.natAbs := by omega
    have htext : (ofInt n).text = '-' :: (ofInt n).digits := if_pos (decide_eq_true hsign)
    rw [Int.repr_eq_if, if_neg (by omega), String.toList_append, Nat.toList_repr, habs, htext]
    rfl
  · have habs : n.toNat = n.natAbs := by omega
    have htext : (ofInt n).text = (ofInt n).digits := if_neg (by simpa [ofInt] using hsign)
    rw [Int.repr_eq_if, if_pos (by omega), Nat.toList_repr, habs, htext]
    rfl

theorem value_ofInt (n : Int) : (ofInt n).value = n := by
  have hdigits : digitsValue (ofInt n).digits = n.natAbs := PrintedNumber.digitsValue_toDigits _
  rw [value, hdigits]
  simp only [ofInt, decide_eq_true_eq]
  split <;> omega

/-- A number that can be written can be read again. -/
theorem isOverlong_ofInt {n : Int} (h : Numeral.isWritable n) : (ofInt n).isOverlong = false := by
  have hlength : (ofInt n).digits.length ≤ Numeral.digitLimit := by
    rw [Numeral.isWritable, decide_eq_true_eq, Numeral.tooLong_eq_pow] at h
    exact (Nat.length_toDigits_le_iff (by decide) (by decide)).2 h
  simpa [isOverlong] using hlength

end SignedDigits

/-! ## Texts -/

/-- The name of the default is not found before the first of its letters. -/
theorem defaultOffset?_append {front : List Char} (h : 'f' ∉ front) (rest : List Char) :
    defaultOffset? (front ++ rest) = defaultOffset? rest := by
  induction front with
  | nil => rfl
  | cons c front ih =>
    rw [List.mem_cons, not_or] at h
    have hlead : after? "ffset ".toList (c :: (front ++ rest)) = none := if_neg h.1
    rw [List.cons_append, defaultOffset?, hlead, Option.bind_none]
    exact ih h.2

theorem mnemonic_append {word : String} (hne : word ≠ "") (hword : ∀ c ∈ word.toList, isWordChar c)
    {rest : String} (hrest : Stops isWordChar rest.toList) : mnemonic (word ++ rest) = word := by
  have hkinds : ∀ c, isWordChar c → (!isWordChar c) = false := by simp
  have hstart : Stops (!isWordChar ·) (word.toList ++ rest.toList) :=
    stops_append hkinds hword (by simpa using hne) _
  have hnone : ∀ c ∈ ([] : List Char), !isWordChar c := nofun
  have hdrop : (word.toList ++ rest.toList).dropWhile (!isWordChar ·) =
      word.toList ++ rest.toList := (dropWhile_append hnone hstart :)
  rw [mnemonic, String.toList_append, hdrop, takeWhile_append hword hrest, String.ofList_toList]

namespace PrintedCase

variable (c : PrintedCase)

theorem toList_text :
    c.text.toList = c.label.toList ++ ':' :: ' ' :: (SignedDigits.ofInt c.offset).text := by
  simp [text, SignedDigits.toList_repr]

theorem not_mem_text {ch : Char} (hlabel : ch ∉ c.label.toList) (hdigit : isDigit ch = false)
    (hother : ch ∉ [':', ' ', '-']) : ch ∉ c.text.toList := by
  simp only [List.mem_cons, List.not_mem_nil, or_false, not_or] at hother
  have hoffset := (SignedDigits.isNumber_ofInt c.offset).not_mem_text hdigit hother.2.2
  simp [toList_text, hlabel, hoffset, hother]

theorem caseOffset?_text : caseOffset? c.text.toList = some (.ofInt c.offset) := by
  rw [toList_text]
  exact (SignedDigits.isNumber_ofInt c.offset).caseOffset?_append c.oneLine

/-- The line continues the text of the switch. -/
def continuation : Continuation where
  text := c.text
  oneLine := c.not_mem_text c.oneLine (by decide) (by decide)

end PrintedCase

namespace PrintedSwitch

variable (sw : PrintedSwitch)

/-- The text of the whole switch, as one string. -/
def fullText : String := sw.text ++ String.join sw.caseLines

theorem flowKind_fullText : flowKind sw.fullText = .switch := by
  have hwords : ∀ word ∈ switches, word ≠ "" ∧ word.toList.all isWordChar ∧
      FlowKind.ofMnemonic word = .switch := by decide +kernel
  obtain ⟨hne, hword, hkind⟩ := hwords sw.word sw.isSwitch
  obtain ⟨rest, htext⟩ : ∃ rest, sw.fullText = sw.word ++ (" defaultOffset " ++ rest) :=
    ⟨toString sw.default ++ " low " ++ toString sw.low ++ " high " ++ toString sw.high ++
      String.join sw.caseLines, by simp [fullText, text, String.append_assoc]⟩
  have hblank : Stops isWordChar (" defaultOffset " ++ rest).toList := by
    rw [String.toList_append]
    exact stops_cons (by decide +kernel) _
  rw [flowKind, htext, mnemonic_append hne (List.all_eq_true.1 hword) hblank, hkind]

theorem defaultOffset?_text : defaultOffset? sw.text.toList = some (.ofInt sw.default) := by
  have hword : ∀ word ∈ switches, 'f' ∉ word.toList := by decide
  have hfront : 'f' ∉ sw.word.toList ++ " de".toList := by
    simpa using hword sw.word sw.isSwitch
  obtain ⟨rest, htext⟩ : ∃ rest, sw.text.toList = sw.word.toList ++ " de".toList ++
      ("faultOffset ".toList ++ ((SignedDigits.ofInt sw.default).text ++ ' ' :: rest)) :=
    ⟨("low " ++ toString sw.low ++ " high " ++ toString sw.high).toList,
      by simp [text, SignedDigits.toList_repr]⟩
  have hblank : Stops isDigit (' ' :: rest) := stops_cons (by decide) rest
  have hnumber := (SignedDigits.isNumber_ofInt sw.default).signedDigits?_append hblank
  rw [htext, defaultOffset?_append hfront]
  simp [defaultOffset?, after?, hnumber]

theorem pieces_append_caseLines {front : List Char} (hfront : '\t' ∉ front)
    (cases : List PrintedCase) :
    pieces '\t' (front ++ (String.join (cases.map (·.line))).toList) =
      (front, cases.map (·.text.toList)) := by
  induction cases generalizing front with
  | nil => simpa using pieces_of_not_mem hfront
  | cons c cases ih =>
    have htab : '\t' ∉ c.text.toList := c.not_mem_text c.oneField (by decide) (by decide)
    have hline : front ++ (String.join ((c :: cases).map (·.line))).toList =
        front ++ '\t' :: (c.text.toList ++ (String.join (cases.map (·.line))).toList) := by
      simp [PrintedCase.line]
    rw [hline, pieces_append_cons, pieces_of_not_mem hfront, ih htab]
    rfl

theorem switchDigits_fullText : switchDigits sw.fullText.toList = sw.offsets.map .ofInt := by
  have hword : ∀ word ∈ switches, '\t' ∉ word.toList := by decide
  have hnumber : ∀ n : Int, '\t' ∉ n.repr.toList := not_mem_repr rfl (by decide)
  have htab : '\t' ∉ sw.text.toList := by simp [text, hword sw.word sw.isSwitch, hnumber]
  have hcases : (sw.cases.map (·.text.toList)).filterMap caseOffset? =
      sw.cases.map fun c => .ofInt c.offset := by
    rw [List.filterMap_map]
    exact List.filterMap_eq_map_iff_forall_eq_some.2 fun c _ => c.caseOffset?_text
  rw [switchDigits, fullText, String.toList_append, caseLines, pieces_append_caseLines htab]
  simp only [defaultOffset?_text, hcases, Option.toList_some, offsets, List.map_cons, List.map_map,
    List.singleton_append]
  rfl

variable {sw} in
/-- The offsets that are read are those that were printed. -/
theorem switchOffsets_fullText (hfits : ∀ n ∈ sw.offsets, Numeral.isWritable n) :
    switchOffsets sw.fullText = .ok sw.offsets := by
  have hshort : (sw.offsets.map SignedDigits.ofInt).find? (·.isOverlong) = none := by
    rw [List.find?_eq_none]
    intro d hd
    obtain ⟨n, hn, rfl⟩ := List.mem_map.1 hd
    simp [SignedDigits.isOverlong_ofInt (hfits n hn)]
  have hvalues : (sw.offsets.map SignedDigits.ofInt).map (·.value) = sw.offsets := by
    simp [Function.comp_def, SignedDigits.value_ofInt]
  rw [switchOffsets, switchDigits_fullText, SignedDigits.mapM_read hshort, hvalues]

end PrintedSwitch

/-! ## Drafts -/

/-- The first of the lines that is about an instruction continues the one before it. -/
def continues (dialect : Dialect) : List String → Bool
  | [] => false
  | line :: rest =>
    match Row.read dialect line with
    | .ok (.continuation _) => true
    | .ok (.data ..) => false
    | _ => continues dialect rest

namespace Draft

variable {dialect : Dialect} {relocate : Relocation} {d d' : Draft} {row : Row}
  {ins : Instruction} {i : Nat}

/-- A row changes no instruction but the last, and that only by continuing it. -/
theorem getElem?_addRow (h : d.addRow relocate row = .ok d')
    (hkept : (∀ text, row ≠ .continuation text) ∨ i + 1 < d.script.instructions.size)
    (hins : d.script.instructions[i]? = some ins) :
    d'.script.instructions[i]? = some ins ∧
      d.script.instructions.size ≤ d'.script.instructions.size := by
  cases row with
  | data address sourceLine count text =>
    cases h
    have hlt : i < d.script.instructions.size := (Array.getElem?_eq_some_iff.1 hins).1
    simp [Array.getElem?_push, Nat.ne_of_lt hlt, hins]
  | continuation text =>
    have hlt := hkept.resolve_left fun hno => hno text rfl
    simp only [addRow] at h
    split at h
    · split at h
      · cases h
        exact ⟨hins, le_rfl⟩
      · cases h
    · cases h
      have hlast : d.script.instructions.size - 1 ≠ i := by omega
      simp [continueText, Array.getElem?_modify, hlast, hins]
  | header file line => cases h; exact ⟨hins, le_rfl⟩
  | entry => cases h; exact ⟨hins, le_rfl⟩
  | finish => cases h; exact ⟨hins, le_rfl⟩
  | noise => cases h; exact ⟨hins, le_rfl⟩

/-- An instruction is done when another has begun. -/
theorem getElem?_addLines_of_lt {lines : List String} (hlt : i + 1 < d.script.instructions.size)
    (hins : d.script.instructions[i]? = some ins)
    (h : d.addLines dialect relocate lines = .ok d') :
    d'.script.instructions[i]? = some ins := by
  have hkept := addLines_keeps (P := fun d => d.script.instructions[i]? = some ins ∧
    i + 1 < d.script.instructions.size) ?_ ⟨hins, hlt⟩ h
  · exact hkept.1
  · rintro line _ row _ d d' ⟨hins, hlt⟩ hrow
    obtain ⟨hins', hsize⟩ := getElem?_addRow hrow (.inr hlt) hins
    exact ⟨hins', Nat.lt_of_lt_of_le hlt hsize⟩

theorem getElem?_addLines {lines : List String} (hlines : continues dialect lines = false)
    (hins : d.script.instructions[i]? = some ins)
    (h : d.addLines dialect relocate lines = .ok d') :
    d'.script.instructions[i]? = some ins := by
  induction lines generalizing d with
  | nil =>
    cases h
    exact hins
  | cons line rest ih =>
    unfold addLines at h
    split at h
    · rename_i d₁ hline
      obtain ⟨row, hread, hrow⟩ := bind_eq_ok_iff.1 hline
      unfold continues at hlines
      rw [hread] at hlines
      have hkept : (∀ text, row ≠ .continuation text) → d₁.script.instructions[i]? = some ins :=
        fun hrow' => (getElem?_addRow hrow (.inl hrow') hins).1
      cases row with
      | continuation text => cases hlines
      | data address sourceLine count text =>
        have hlt : i < d.script.instructions.size := (Array.getElem?_eq_some_iff.1 hins).1
        cases hrow
        exact getElem?_addLines_of_lt (by simpa using hlt) (hkept nofun) h
      | header file line => exact ih hlines (hkept nofun) h
      | entry => exact ih hlines (hkept nofun) h
      | finish => exact ih hlines (hkept nofun) h
      | noise => exact ih hlines (hkept nofun) h
    · cases h

/-- Lines that can be read are added without a fault. -/
theorem exists_addLines_of_read {lines : List String} (hd : d.script.isWritable)
    (hlines : ∀ line ∈ lines, ∃ row, Row.read dialect line = .ok row) :
    ∃ d', d.addLines dialect .identity lines = .ok d' ∧ d'.script.isWritable := by
  induction lines generalizing d with
  | nil => exact ⟨d, rfl, hd⟩
  | cons line rest ih =>
    obtain ⟨⟨row, hread⟩, hrest⟩ := List.forall_mem_cons.1 hlines
    obtain ⟨d₁, hrow⟩ := exists_addRow_of_writable (Script.isWritable_iff.1 hd).1 row
    have hplace : ∀ file line, (Relocation.identity file line).2 = id line := fun _ _ => rfl
    have hd₁ := isWritable_addRow hplace (Row.isWritable_of_read hread) hd hrow
    rw [addLines_cons hread hrow]
    exact ih hd₁ hrest

end Draft

/-! ## Targets -/

theorem forall₂_of_mapM {α β : Type} {f : α → Except Fault β} {as : List α} {bs : List β}
    (h : as.mapM f = .ok bs) : List.Forall₂ (fun a b => f a = .ok b) as bs := by
  induction as generalizing bs with
  | nil =>
    cases h
    exact .nil
  | cons a rest ih =>
    rw [List.mapM_cons] at h
    obtain ⟨b, hb, h⟩ := bind_eq_ok_iff.1 h
    obtain ⟨bs', hbs', h⟩ := bind_eq_ok_iff.1 h
    cases h
    exact .cons hb (ih hbs')

namespace Script

variable {s : Script} {ins : Instruction} {i : Nat}

/-- Each address is put into the index anew where it comes again. -/
theorem getElem?_foldl_insert (code : List Instruction) (index : Std.TreeMap Int Nat) (start : Nat)
    (address : Int) :
    ((code.zipIdx start).foldl (fun index (ins, i) => index.insert ins.address i) index)[address]? =
      ((lastPosition? address code).map (start + ·)).or index[address]? := by
  induction code generalizing index start with
  | nil => rfl
  | cons ins code ih =>
    rw [List.zipIdx_cons, List.foldl_cons, ih, lastPosition?]
    cases lastPosition? address code with
    | some i => simp [Nat.add_assoc, Nat.add_comm 1]
    | none =>
      rw [Std.TreeMap.getElem?_insert]
      by_cases haddress : ins.address = address
      · simp [haddress]
      · simp [haddress]

/-- The index holds of each address the last position. -/
theorem mem_addressIndex_iff {address : Int} {i : Nat} :
    (address, i) ∈ s.addressIndex ↔ s.position? address = some i := by
  rw [addressIndex, Std.TreeMap.mem_toList_iff_getElem?_eq_some, getElem?_foldl_insert]
  simp [position?]

theorem mem_addressIndex_of_resolve {source target : Int} (h : s.resolve source target = .ok i) :
    (target, i) ∈ s.addressIndex := by
  rw [mem_addressIndex_iff]
  rw [resolve] at h
  split at h
  · cases h
    assumption
  · split at h <;> cases h

/-- A printed switch looks up all of its targets, one after the other. -/
theorem successors_of_fullText {sw : PrintedSwitch} (hins : s.instructions[i]? = some ins)
    (htext : ins.text = sw.fullText) (hfits : ∀ n ∈ sw.offsets, Numeral.isWritable n) :
    s.successors i = (sw.targets ins.address).mapM (s.resolve ins.address) := by
  have hkind : flowKind ins.text = .switch := htext ▸ sw.flowKind_fullText
  have hoffsets : switchOffsets ins.text = .ok sw.offsets :=
    htext ▸ PrintedSwitch.switchOffsets_fullText hfits
  simp only [successors, hins, successorsOf, hkind, hoffsets]
  rw [PrintedSwitch.targets, List.mapM_map]
  rfl

/-- Targets that are looked up are all found, or the first that is missing is told. -/
theorem mapM_resolve {source : Int} (hname : s.nameIsWritable) (hsource : Numeral.isWritable source)
    (targets : List Int) :
    (targets.find? s.misses = none → ∃ positions, targets.mapM (s.resolve source) = .ok positions ∧
      List.Forall₂ (fun target i => (target, i) ∈ s.addressIndex) targets positions) ∧
    ∀ target, targets.find? s.misses = some target →
      targets.mapM (s.resolve source) = .error (if Numeral.isWritable target
        then .unresolvedTarget s.name source target else .overlongNumber) := by
  have hfails : ∀ e, targets.mapM (s.resolve source) = .error e ↔
      ∃ target, targets.find? s.misses = some target ∧ s.resolve source target = .error e :=
    fun e => mapM_eq_error_iff fun _ => misses_iff_resolve_fails
  refine ⟨fun hnone => ?_, fun target htarget => ?_⟩
  · cases hdone : targets.mapM (s.resolve source) with
    | error e =>
      obtain ⟨target, htarget, -⟩ := (hfails e).1 hdone
      rw [hnone] at htarget
      cases htarget
    | ok positions =>
      refine ⟨positions, rfl, (forall₂_of_mapM hdone).imp ?_⟩
      exact fun target i hresolve => mem_addressIndex_of_resolve hresolve
  · have hmissed := resolve_missed (List.find?_some htarget) hname hsource
    exact (hfails _).2 ⟨target, htarget, hmissed⟩

/-! ## Records -/

/-- A switch is built with the text that was printed, at the place where its first line stands. -/
theorem exists_ofRecord_fullText {before after : List String} {line : String}
    {address sourceLine count : Nat} (sw : PrintedSwitch)
    (hbefore : ∀ l ∈ before, ∃ row, Row.read {} l = .ok row)
    (hline : Row.read {} line = .ok (.data address sourceLine count sw.text))
    (hafter : ∀ l ∈ after, ∃ row, Row.read {} l = .ok row) (hends : continues {} after = false) :
    ∃ front s ins, ofRecord {} .identity before = .ok front ∧
      ofRecord {} .identity (before ++ line :: (sw.caseLines ++ after)) = .ok s ∧
      s.instructions[front.instructions.size]? = some ins ∧ ins.address = address ∧
      ins.text = sw.fullText ∧ s.nameIsWritable := by
  have hfresh : ({} : Draft).script.isWritable := by decide +kernel
  obtain ⟨d, hfront, hd⟩ := Draft.exists_addLines_of_read hfresh hbefore
  let whole : Instruction := { address, sourceLine, text := sw.fullText, count }
  have hrow : ∀ text, d.addRow .identity (.data address sourceLine count text) =
      .ok (d.extend [{ address, sourceLine, text, count }]) := by
    intro text
    simp [Draft.addRow, Draft.extend, Relocation.identity]
  have hcases : (d.extend [{ whole with text := sw.text }]).addLines {} .identity
      (sw.caseLines ++ after) =
      (d.extend [whole]).addLines {} .identity after := by
    have hlines : sw.caseLines = (sw.cases.map (·.continuation)).map (·.line) := by
      rw [List.map_map]
      rfl
    rw [hlines, Draft.addLines_continuations, ← hlines]
    rfl
  have hplace : ∀ file line, (Relocation.identity file line).2 = id line := fun _ _ => rfl
  -- The whole text could as well have stood on the first line.
  have hnumbers : (Row.data address sourceLine count sw.fullText).IsWritable id :=
    show (Row.data address sourceLine count sw.text).IsWritable id from Row.isWritable_of_read hline
  have hwhole : (d.extend [whole]).script.isWritable :=
    Draft.isWritable_addRow hplace hnumbers hd (hrow sw.fullText)
  obtain ⟨d', hdone, hd'⟩ := Draft.exists_addLines_of_read hwhole hafter
  have hins : d'.script.instructions[d.script.instructions.size]? = some whole :=
    Draft.getElem?_addLines hends (by simp [Draft.extend]) hdone
  refine ⟨d.script, d'.script, whole, ?_, ?_, hins, rfl, rfl, (isWritable_iff.1 hd').1⟩
  · rw [ofRecord, hfront]
    rfl
  · rw [ofRecord, Draft.addLines_append, hfront, Except.bind,
      Draft.addLines_cons hline (hrow sw.text), hcases, hdone]
    rfl

/-- A switch that is printed between lines which can be read is built with the offsets that were
printed, and leads to what is at these distances from it. If targets are missing, the first of them
is told, where it can be written. -/
theorem ofRecord_switch {before after : List String} {line : String}
    {address sourceLine count : Nat} (sw : PrintedSwitch)
    (hbefore : ∀ l ∈ before, ∃ row, Row.read {} l = .ok row)
    (hline : Row.read {} line = .ok (.data address sourceLine count sw.text))
    (hafter : ∀ l ∈ after, ∃ row, Row.read {} l = .ok row) (hends : continues {} after = false)
    (hfits : ∀ n ∈ sw.offsets, Numeral.isWritable n) :
    ∃ front s ins, ofRecord {} .identity before = .ok front ∧
      ofRecord {} .identity (before ++ line :: (sw.caseLines ++ after)) = .ok s ∧
      s.instructions[front.instructions.size]? = some ins ∧ ins.address = address ∧
      switchOffsets ins.text = .ok sw.offsets ∧
      ((sw.targets address).find? s.misses = none →
        ∃ positions, s.successors front.instructions.size = .ok positions ∧
          List.Forall₂ (fun target i => (target, i) ∈ s.addressIndex) (sw.targets address)
            positions) ∧
      ∀ target, (sw.targets address).find? s.misses = some target →
        s.successors front.instructions.size = .error (if Numeral.isWritable target
          then .unresolvedTarget s.name address target else .overlongNumber) := by
  obtain ⟨front, s, ins, hfront, hs, hins, haddress, htext, hname⟩ :=
    exists_ofRecord_fullText sw hbefore hline hafter hends
  have hsource : Numeral.isWritable address := (Row.isWritable_of_read hline).1
  have hsuccessors := successors_of_fullText hins htext hfits
  have hoffsets : switchOffsets ins.text = .ok sw.offsets :=
    htext ▸ PrintedSwitch.switchOffsets_fullText hfits
  rw [haddress] at hsuccessors
  refine ⟨front, s, ins, hfront, hs, hins, haddress, hoffsets, ?_⟩
  rw [hsuccessors]
  exact mapM_resolve hname hsource _

end Script

namespace PrintedSwitch

/-- A switch with labels that look like offsets. -/
def labelled : PrintedSwitch :=
  { word := "lookupswitchx", default := 10, low := 0, high := 1,
    cases := [{ label := "x: 5", offset := -10 }, { label := "7 : ", offset := 10 }] }

def labelledLine : String := "100:1/0/0 x 1 lookupswitchx defaultOffset 10 low 0 high 1"

def linesBefore : List String := ["--- SCRIPT a.js:1 ---", "90:1/0/0 x 1 pop"]

def linesAfter : List String := ["110:1/0/0 x 2 stop", "\tdone"]

def labelledScript : Script :=
  { filename := "a.js"
    startLine := 1
    instructions :=
      #[{ address := 90, sourceLine := 1, text := "pop", count := 1 },
        { address := 100, sourceLine := 1, text := labelled.fullText, count := 1 },
        { address := 110, sourceLine := 2, text := "stop\tdone", count := 1 }] }

theorem ofRecord_labelled :
    labelled.caseLines = ["\tx: 5: -10", "\t7 : : 10"] ∧
    Script.ofRecord {} .identity
        (linesBefore ++ labelledLine :: (labelled.caseLines ++ linesAfter)) = .ok labelledScript ∧
    ∃ positions, labelledScript.successors 1 = .ok positions ∧
      List.Forall₂ (fun target i => (target, i) ∈ labelledScript.addressIndex) [110, 90, 110]
        positions := by
  have hbefore : ∀ l ∈ linesBefore, ∃ row, Row.read {} l = .ok row := by
    rw [linesBefore, List.forall_mem_cons, List.forall_mem_singleton]
    exact ⟨⟨.header "a.js" 1, by decide +kernel⟩, ⟨.data 90 1 1 "pop", by decide +kernel⟩⟩
  have hafter : ∀ l ∈ linesAfter, ∃ row, Row.read {} l = .ok row := by
    rw [linesAfter, List.forall_mem_cons, List.forall_mem_singleton]
    exact ⟨⟨.data 110 2 1 "stop", by decide +kernel⟩, ⟨.continuation "\tdone", by decide +kernel⟩⟩
  have hline : Row.read {} labelledLine = .ok (.data 100 1 1 labelled.text) := by decide +kernel
  have hends : continues {} linesAfter = false := by decide +kernel
  have hfits : ∀ n ∈ labelled.offsets, Numeral.isWritable n := by decide +kernel
  obtain ⟨front, s, ins, hfront, hs, -, -, -, hfound, -⟩ :=
    Script.ofRecord_switch labelled hbefore hline hafter hends hfits
  have hsize : front.instructions.size = 1 := by
    have hone : (Script.ofRecord {} .identity linesBefore).map (·.instructions.size) = .ok 1 := by
      decide +kernel
    simpa [hfront, Except.map] using hone
  have hbuilt : Script.ofRecord {} .identity
      (linesBefore ++ labelledLine :: (labelled.caseLines ++ linesAfter)) = .ok labelledScript := by
    decide +kernel
  cases hs.symm.trans hbuilt
  obtain ⟨positions, hpositions, hindex⟩ := hfound (by decide +kernel)
  exact ⟨by decide +kernel, hbuilt, positions, hsize ▸ hpositions, hindex⟩

/-- The first line of a switch at the highest address that can be written, and the line of a case
that leads further. -/
def farLines : PrintedInstruction where
  address :=
    { value := Numeral.tooLong - 1
      fits := by
        have hlt : Numeral.tooLong - 1 < 10 ^ Numeral.digitLimit := by
          rw [← Numeral.tooLong_eq_pow]
          exact Nat.sub_one_lt (by decide +kernel)
        rw [Nat.zero_add]
        exact (Nat.length_toDigits_le_iff (by decide) (by decide)).2 hlt }
  first := { value := 1 }
  second := { value := 0 }
  third := { value := 0 }
  sourceLine := { value := 1 }
  text := "tableswitch defaultOffset 1 low 0 high 0"
  continuations := [{ text := "0: 2" }]

def far : PrintedSwitch :=
  { word := "tableswitch", default := 1, low := 0, high := 0,
    cases := [{ label := "0", offset := 2 }] }

def farScript : Script :=
  { filename := "a.js", startLine := 1, instructions := #[farLines.instruction] }

/-- Both targets are missing, but the first of them cannot be written, and so it is not told. -/
theorem successors_far :
    Row.read {} farLines.dataLine = .ok (.data (Numeral.tooLong - 1) 1 1 far.text) ∧
    (∀ n ∈ far.offsets, Numeral.isWritable n) ∧
    Script.ofRecord {} .identity
      (["--- SCRIPT a.js:1 ---"] ++ farLines.dataLine :: (far.caseLines ++ [])) = .ok farScript ∧
    (far.targets (Numeral.tooLong - 1 : Nat)).find? farScript.misses =
      some (Numeral.tooLong : Nat) ∧
    farScript.successors 0 = .error .overlongNumber := by
  have htext : farLines.keptText = far.text := by decide +kernel
  have hcases : farLines.continuations.map (·.line) = far.caseLines := by decide +kernel
  have hheader : Row.read {} "--- SCRIPT a.js:1 ---" = .ok (.header "a.js" 1) := by decide +kernel
  have hopen : Draft.addRow .identity {} (.header "a.js" 1) = .ok (.opened "a.js" 1) := rfl
  have hbuilt : Script.ofRecord {} .identity ("--- SCRIPT a.js:1 ---" :: (farLines.lines ++ [])) =
      .ok farScript := by
    rw [Script.ofRecord, Draft.addLines_cons hheader hopen, Draft.addLines_instruction]
    rfl
  rw [PrintedInstruction.lines, hcases] at hbuilt
  exact ⟨htext ▸ farLines.read_dataLine, by decide +kernel, hbuilt, by decide +kernel,
    by decide +kernel⟩

end PrintedSwitch

end BytecodeCoverage
