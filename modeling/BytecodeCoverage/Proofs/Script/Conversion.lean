-- SUMMARY: Records of which all runs of digits are short are built, and only their jumps can fail.
import BytecodeCoverage.Proofs.Script.Records
import BytecodeCoverage.Proofs.Text.Runs

/-!
# Conversions

The numbers of a record are runs of digits in its lines. Where all of those are short, the record is
built, its script can be signed, and so can be written whatever a fault says about it. All that is
left to go wrong is a jump to an address that the script does not have.
-/

namespace BytecodeCoverage

open Text

/-! ## Fields -/

section Fields

variable {line cs rest digits : List Char}

theorem isRunOf_of_digits? (h : digits? cs = some (digits, rest)) :
    IsRunOf digits cs ∧ rest <:+ cs := by
  unfold digits? at h
  split at h
  · cases h
  · cases h
    exact ⟨isRunOf_takeWhile cs, List.dropWhile_suffix _⟩

theorem suffix_of_blanks? (h : blanks? cs = some rest) : rest <:+ cs := by
  unfold blanks? at h
  split at h
  · cases h
  · cases h
    exact List.dropWhile_suffix _

/-- Between slashes there are only digits. -/
theorem isRunOf_of_counts? {runs : List (List Char)} (h : counts? cs = some (runs, rest)) :
    (∀ run ∈ runs, IsRunOf run cs) ∧ rest <:+ cs := by
  unfold counts? at h
  simp only at h
  split at h
  · cases h
    refine ⟨?_, List.dropWhile_suffix _⟩
    intro run hrun
    have hinside := infix_of_mem_pieces hrun
    refine ⟨hinside.trans (List.takeWhile_prefix _).isInfix, ?_⟩
    intro c hc
    have hpart := List.mem_takeWhile_imp (hinside.subset hc)
    have hslash : c ≠ '/' := fun heq => not_mem_piece hrun (heq ▸ hc)
    simpa [hslash] using hpart
  · cases h

theorem isRunOf_of_header? {file : List Char} (h : header? line = some (file, digits)) :
    IsRunOf digits line := by
  simp only [header?, Option.bind_eq_bind, Option.bind_eq_some_iff] at h
  obtain ⟨front, hfront, back, hback, h⟩ := h
  split at h
  · split at h
    · cases h
      have hrest : front <:+: line :=
        (suffix_of_after? hfront).isInfix.trans (prefix_dropFinalNewline line).isInfix
      have hinside : back.reverse <:+: front := by
        simpa using List.reverse_infix.2 (suffix_of_after? hback).isInfix
      exact (isRunOf_takeWhile back).reverse.within (hinside.trans hrest)
    · cases h
  · cases h

/-- The numbers of an instruction line are runs of it, and the text is a part of it. -/
structure DataFields.IsPartOf (fields : DataFields) (line : List Char) : Prop where
  address : IsRunOf fields.address line
  counts : ∀ run ∈ fields.counts, IsRunOf run line
  sourceLine : IsRunOf fields.sourceLine line
  text : fields.text <:+: line

theorem infix_of_lineText? {text : List Char} (h : lineText? cs = some text) : text <:+: cs := by
  unfold lineText? at h
  simp only at h
  split at h
  · cases h
    exact (List.takeWhile_prefix _).isInfix
  · cases h

theorem isPartOf_of_dataFields? {fields : DataFields} (h : dataFields? line = some fields) :
    fields.IsPartOf line := by
  simp only [dataFields?, Option.bind_eq_bind, Option.bind_eq_some_iff] at h
  obtain ⟨⟨address, afterAddress⟩, haddress, afterColon, hcolon, ⟨counts, afterCounts⟩, hcounts,
    afterBlank, hblank, afterMark, hmark, atLine, hatLine, ⟨sourceLine, afterLine⟩, hline, atText,
    hatText, text, htext, h⟩ := h
  cases h
  obtain ⟨hrunAddress, hsuffixAddress⟩ := isRunOf_of_digits? haddress
  obtain ⟨hrunCounts, hsuffixCounts⟩ := isRunOf_of_counts? hcounts
  obtain ⟨hrunLine, hsuffixLine⟩ := isRunOf_of_digits? hline
  -- Each field starts where the one before it ends.
  have hafterColon : afterColon <:+ line := (suffix_of_after? hcolon).trans hsuffixAddress
  have hafterCounts : afterCounts <:+ line := hsuffixCounts.trans hafterColon
  have hatLine : atLine <:+ line := (suffix_of_blanks? hatLine).trans
    ((suffix_of_after? hmark).trans ((suffix_of_blanks? hblank).trans hafterCounts))
  have hatText : atText <:+ line := (suffix_of_blanks? hatText).trans (hsuffixLine.trans hatLine)
  exact ⟨hrunAddress, fun run hrun => (hrunCounts run hrun).within hafterColon.isInfix,
    hrunLine.within hatLine.isInfix, (infix_of_lineText? htext).trans hatText.isInfix⟩

end Fields

/-! ## Rows -/

/-- The numbers of the row are short, and so are the runs of digits of its text. -/
def Row.IsShort : Row → Prop
  | .header _ startLine => Numeral.IsShort startLine
  | .data address sourceLine _ text =>
    Numeral.IsShort address ∧ Numeral.IsShort sourceLine ∧ HasShortRuns text.toList
  | .continuation text => HasShortRuns text.toList ∧ text.toList.head? = some '\t'
  | _ => True

theorem infix_instructionText (d : Dialect) (text : String) :
    (d.instructionText text).toList <:+: text.toList := by
  unfold Dialect.instructionText
  cases hfind : d.placeholderMnemonics.find? fun mnemonic =>
      (mnemonic.toList ++ [' ']).isPrefixOf text.toList with
  | none => exact List.infix_rfl
  | some mnemonic =>
    have hlead : (mnemonic.toList ++ [' ']).isPrefixOf text.toList := by
      simpa using List.find?_some hfind
    exact ((List.prefix_append _ _).trans (List.isPrefixOf_iff_prefix.1 hlead)).isInfix

theorem exists_executionCount {cs : List Char} (h : HasReadableRuns cs) {counts : List (List Char)}
    (hcounts : ∀ run ∈ counts, IsRunOf run cs) : ∃ n, executionCount counts = .ok n := by
  have hfold : ∀ (runs : List (List Char)) (sum : Nat), (∀ run ∈ runs, IsRunOf run cs) →
      ∃ n, runs.foldlM (fun sum digits => (Numeral.read digits).map (sum + ·)) sum = .ok n := by
    intro runs
    induction runs with
    | nil => exact fun sum _ => ⟨sum, rfl⟩
    | cons run rest ih =>
      intro sum hruns
      obtain ⟨hrun, hrest⟩ := List.forall_mem_cons.1 hruns
      obtain ⟨n, hn⟩ := ih (sum + digitsValue run) hrest
      refine ⟨n, ?_⟩
      rw [List.foldlM_cons, h.read hrun]
      exact hn
  exact hfold _ 0 fun run hrun => hcounts run (List.mem_of_mem_take hrun)

/-- A line is read if its runs of digits can be. -/
theorem Row.exists_read (d : Dialect) {line : String} (h : HasReadableRuns line.toList) :
    ∃ row, Row.read d line = .ok row := by
  unfold Row.read
  split
  · rename_i file digits hheader
    exact ⟨_, by rw [h.read (isRunOf_of_header? hheader)]; rfl⟩
  · split
    · exact ⟨_, rfl⟩
    · split
      · exact ⟨_, rfl⟩
      · split
        · rename_i fields hfields
          have hpart := isPartOf_of_dataFields? hfields
          obtain ⟨count, hcount⟩ := exists_executionCount h hpart.counts
          refine ⟨.data (digitsValue fields.address) (digitsValue fields.sourceLine) count
            (d.instructionText (String.ofList fields.text)), ?_⟩
          rw [DataFields.toRow, h.read hpart.sourceLine, h.read hpart.address, hcount]
          rfl
        · split
          · exact ⟨_, rfl⟩
          · exact ⟨_, rfl⟩

/-- The numbers of the row are what runs of the line write, and its text is a part of the line. -/
def Row.IsPartOf (line : List Char) : Row → Prop
  | .header _ startLine => ∃ run, IsRunOf run line ∧ Numeral.read run = .ok startLine
  | .data address sourceLine _ text =>
    (∃ run, IsRunOf run line ∧ Numeral.read run = .ok address) ∧
      (∃ run, IsRunOf run line ∧ Numeral.read run = .ok sourceLine) ∧ text.toList <:+: line
  | .continuation text => text.toList = line ∧ line.head? = some '\t'
  | _ => True

theorem Row.isPartOf_of_read {d : Dialect} {line : String} {row : Row}
    (h : Row.read d line = .ok row) : row.IsPartOf line.toList := by
  unfold Row.read at h
  split at h
  · rename_i file digits hheader
    obtain ⟨n, hn, rfl⟩ := map_eq_ok_iff.1 h
    exact ⟨digits, isRunOf_of_header? hheader, hn⟩
  · split at h
    · cases h
      trivial
    · split at h
      · cases h
        trivial
      · split at h
        · rename_i fields hfields
          have hpart := isPartOf_of_dataFields? hfields
          unfold DataFields.toRow at h
          obtain ⟨sourceLine, hline, h⟩ := bind_eq_ok_iff.1 h
          obtain ⟨address, haddress, h⟩ := bind_eq_ok_iff.1 h
          obtain ⟨count, -, h⟩ := bind_eq_ok_iff.1 h
          cases h
          refine ⟨⟨_, hpart.address, haddress⟩, ⟨_, hpart.sourceLine, hline⟩, ?_⟩
          refine List.IsInfix.trans ?_ hpart.text
          simpa using infix_instructionText d (String.ofList fields.text)
        · split at h
          · rename_i htab
            cases h
            exact ⟨rfl, htab⟩
          · cases h
            trivial

/-- The runs of digits in the row's text can be converted. A continuation starts with a tab. -/
def Row.IsReadable : Row → Prop
  | .data _ _ _ text => HasReadableRuns text.toList
  | .continuation text => HasReadableRuns text.toList ∧ text.toList.head? = some '\t'
  | _ => True

theorem Row.IsPartOf.isReadable {line : List Char} {row : Row} (h : row.IsPartOf line)
    (hruns : HasReadableRuns line) : row.IsReadable := by
  cases row with
  | data address sourceLine count text =>
    obtain ⟨-, -, htext⟩ := h
    exact hruns.within htext
  | continuation text =>
    obtain ⟨rfl, htab⟩ := h
    exact ⟨hruns, htab⟩
  | header file startLine => trivial
  | finish => trivial
  | entry => trivial
  | noise => trivial

theorem Row.IsPartOf.isShort {line : List Char} {row : Row} (h : row.IsPartOf line)
    (hruns : HasShortRuns line) : row.IsShort := by
  have hnumber : ∀ {n : Nat}, (∃ run, IsRunOf run line ∧ Numeral.read run = .ok n) →
      Numeral.IsShort n := by
    rintro n ⟨run, hrun, hread⟩
    obtain ⟨m, hm, hshort⟩ := hruns.read hrun
    exact Except.ok.inj (hm.symm.trans hread) ▸ hshort
  cases row with
  | header file startLine => exact hnumber h
  | data address sourceLine count text =>
    obtain ⟨haddress, hline, htext⟩ := h
    exact ⟨hnumber haddress, hnumber hline, hruns.within htext⟩
  | continuation text =>
    obtain ⟨rfl, htab⟩ := h
    exact ⟨hruns, htab⟩
  | finish => trivial
  | entry => trivial
  | noise => trivial

/-! ## Drafts -/

/-- The numbers of the instruction are short, and so are the runs of digits of its text. -/
structure Instruction.IsShort (ins : Instruction) : Prop where
  address : Numeral.IsShort ins.address
  sourceLine : Numeral.IsShort ins.sourceLine
  text : HasShortRuns ins.text.toList

structure Script.IsShort (s : Script) : Prop where
  startLine : Numeral.IsShort s.startLine
  code : ∀ ins ∈ s.instructions.toList, ins.IsShort

namespace Draft

variable {d d' : Draft} {row : Row}

theorem exists_addRow (h : d.script.IsShort) (hrow : row.IsShort) :
    ∃ d', d.addRow Relocation.identity row = .ok d' ∧ Numeral.IsShort d'.script.startLine := by
  obtain ⟨d', hadd⟩ := exists_addRow_of_writable h.startLine.isWritable row
  refine ⟨d', hadd, ?_⟩
  rcases place_addRow hadd with hkept | ⟨file, line, rfl, hmoved⟩
  · have hline : d'.script.startLine = d.script.startLine := congrArg Prod.snd hkept
    exact hline ▸ h.startLine
  · have hline : d'.script.startLine = line := congrArg Prod.snd hmoved
    exact hline ▸ hrow

theorem isShort_of_mem_addRow (h : d.script.IsShort) (hrow : row.IsShort)
    (hadd : d.addRow Relocation.identity row = .ok d') :
    ∀ ins ∈ d'.script.instructions.toList, ins.IsShort := by
  intro ins hins
  rcases mem_addRow hadd hins with hins | ⟨address, line, count, text, rfl, rfl⟩ |
    ⟨text, rfl, old, hold, rfl⟩
  · exact h.code ins hins
  · obtain ⟨haddress, hline, htext⟩ := hrow
    exact ⟨haddress, hline, htext⟩
  · -- The tab that a continuation starts with parts its digits from those before it.
    obtain ⟨haddress, hline, hshort⟩ := h.code old hold
    obtain ⟨htext, htab⟩ := hrow
    obtain ⟨rest, hrest⟩ := List.head?_eq_some_iff.1 htab
    refine ⟨haddress, hline, ?_⟩
    rw [hrest] at htext
    rw [String.toList_append, hrest]
    exact hshort.append_cons (by decide) htext

theorem exists_addLines (dialect : Dialect) {lines : List String}
    (hlines : ∀ line ∈ lines, HasShortRuns line.toList) (h : d.script.IsShort) :
    ∃ d', d.addLines dialect Relocation.identity lines = .ok d' ∧ d'.script.IsShort := by
  induction lines generalizing d with
  | nil => exact ⟨d, rfl, h⟩
  | cons line rest ih =>
    obtain ⟨hline, hrest⟩ := List.forall_mem_cons.1 hlines
    obtain ⟨row, hread⟩ := Row.exists_read dialect hline.readable
    have hrow : row.IsShort := (Row.isPartOf_of_read hread).isShort hline
    obtain ⟨d₁, hadd, hstart⟩ := exists_addRow h hrow
    have hd₁ : d.addLine dialect Relocation.identity line = .ok d₁ := by
      rw [addLine, hread]
      exact hadd
    obtain ⟨d', hd', hshort⟩ := ih hrest ⟨hstart, isShort_of_mem_addRow h hrow hadd⟩
    refine ⟨d', ?_, hshort⟩
    rw [addLines, hd₁]
    exact hd'

end Draft

namespace Script

variable {s : Script} {ins : Instruction}

/-- A record of short runs is built. -/
theorem exists_ofRecord (dialect : Dialect) {lines : List String}
    (hlines : ∀ line ∈ lines, HasShortRuns line.toList) :
    ∃ s, Script.ofRecord dialect Relocation.identity lines = .ok s ∧ s.IsShort := by
  have hnew : ({} : Draft).script.IsShort := ⟨Numeral.isShort_zero, nofun⟩
  obtain ⟨d, hd, hshort⟩ := Draft.exists_addLines dialect hlines hnew
  exact ⟨d.script, by rw [ofRecord, hd]; rfl, hshort⟩

theorem IsShort.sign (h : s.IsShort) : s.sign = .ok s.signature := by
  refine if_pos (isWritable_iff.2 ⟨h.startLine.isWritable, fun ins hins => ?_⟩)
  have hshort := h.code ins hins
  exact Bool.and_eq_true_iff.2 ⟨hshort.address.isWritable, hshort.sourceLine.isWritable⟩

/-! ## Jumps -/

theorem isRunOf_of_branchDigits? {text digits : List Char}
    (h : branchDigits? text = some digits) : IsRunOf digits text := by
  unfold branchDigits? at h
  simp only at h
  split at h
  · cases h
  · split at h
    · cases h
    · split at h
      · cases h
      · cases h
        exact (isRunOf_takeWhile _).within
          ((List.dropWhile_suffix _).trans (List.dropWhile_suffix _)).isInfix

theorem isRunOf_of_signedDigits? {cs : List Char} {found : SignedDigits}
    (h : signedDigits? cs = some found) : IsRunOf found.digits cs := by
  have hrest : ∀ (negative : Bool) (rest : List Char), rest <:+ cs →
      (if rest.takeWhile isDigit = [] then none
        else some ⟨negative, rest.takeWhile isDigit⟩) = some found → IsRunOf found.digits cs := by
    intro negative rest hsuffix hfound
    split at hfound
    · cases hfound
    · cases hfound
      exact (isRunOf_takeWhile rest).within hsuffix.isInfix
  unfold signedDigits? at h
  split at h
  rename_i negative rest hsplit
  split at hsplit
  · cases hsplit
    exact hrest _ _ (List.suffix_cons _ _) h
  · cases hsplit
    exact hrest _ _ (List.suffix_refl _) h

theorem isRunOf_of_defaultOffset? {cs : List Char} {found : SignedDigits}
    (h : defaultOffset? cs = some found) : IsRunOf found.digits cs := by
  induction cs with
  | nil => cases h
  | cons c rest ih =>
    rw [defaultOffset?] at h
    split at h
    · rename_i found' hfound
      cases h
      obtain ⟨after, hafter, hsigned⟩ := Option.bind_eq_some_iff.1 hfound
      exact (isRunOf_of_signedDigits? hsigned).within (suffix_of_after? hafter).isInfix
    · exact (ih h).within (List.suffix_cons c rest).isInfix

theorem isRunOf_of_caseOffset? {line : List Char} {found : SignedDigits}
    (h : caseOffset? line = some found) : IsRunOf found.digits line := by
  have hrun : IsRunOf ((dropFinalNewline line).reverse.takeWhile isDigit).reverse line := by
    have hreverse := (isRunOf_takeWhile (dropFinalNewline line).reverse).reverse
    rw [List.reverse_reverse] at hreverse
    exact hreverse.within (prefix_dropFinalNewline line).isInfix
  unfold caseOffset? at h
  simp only at h
  split at h
  · cases h
  · obtain ⟨_, -, rfl⟩ := Option.map_eq_some_iff.1 h
    exact hrun

theorem isRunOf_of_mem_switchDigits {text : List Char} {offset : SignedDigits}
    (h : offset ∈ switchDigits text) : IsRunOf offset.digits text := by
  rcases List.mem_append.1 h with h | h
  · exact (isRunOf_of_defaultOffset? (Option.mem_toList.1 h)).within
      (infix_of_mem_pieces (.head _))
  · obtain ⟨line, hline, hfound⟩ := List.mem_filterMap.1 h
    exact (isRunOf_of_caseOffset? hfound).within (infix_of_mem_pieces (.tail _ hline))

/-- A jump to an address that no instruction has. -/
def IsUnresolved (s : Script) (fault : Fault) : Prop :=
  ∃ ins ∈ s.instructions.toList, ∃ target : Int,
    fault = .unresolvedTarget s.name ins.address target ∧
      ∀ other ∈ s.instructions.toList, other.address ≠ target

theorem IsShort.isUnresolved_of_resolve (h : s.IsShort) (hins : ins ∈ s.instructions.toList)
    {target : Int} (htarget : Numeral.isWritable target) {e : Fault}
    (he : s.resolve ins.address target = .error e) : s.IsUnresolved e := by
  have hsource := (h.code ins hins).address.isWritable
  have hname : s.nameIsWritable := h.startLine.isWritable
  unfold resolve at he
  cases hposition : s.position? target with
  | some i =>
    rw [hposition] at he
    cases he
  | none =>
    rw [hposition] at he
    simp only [hname, hsource, htarget, Bool.and_self, if_true] at he
    cases he
    exact ⟨ins, hins, target, rfl, lastPosition?_eq_none_iff.1 hposition⟩

/-- Whatever is done with the position, it is the jump that fails. -/
theorem IsShort.isUnresolved_of_bind (h : s.IsShort) (hins : ins ∈ s.instructions.toList)
    {target : Int} (htarget : Numeral.isWritable target) {f : Nat → List Nat} {e : Fault}
    (he : (s.resolve ins.address target >>= fun j => .ok (f j)) = .error e) :
    s.IsUnresolved e := by
  cases hresolve : s.resolve ins.address target with
  | ok j =>
    rw [hresolve] at he
    cases he
  | error e' =>
    rw [hresolve] at he
    cases he
    exact h.isUnresolved_of_resolve hins htarget hresolve

theorem mapM_eq_error {α β : Type} {f : α → Except Fault β} {as : List α} {e : Fault}
    (h : as.mapM f = .error e) : ∃ a ∈ as, f a = .error e := by
  have hfails : ∀ a, (!(f a).isOk) = true ↔ ∃ e, f a = .error e := by
    intro a
    cases f a <;> simp [Except.isOk, Except.toBool]
  obtain ⟨a, ha, he⟩ := (mapM_eq_error_iff hfails).1 h
  exact ⟨a, List.mem_of_find?_eq_some ha, he⟩

theorem exists_branchTarget {text : String} (h : HasShortRuns text.toList) :
    ∃ target, branchTarget text = .ok target ∧ ∀ n, target = some n → Numeral.IsShort n := by
  unfold branchTarget
  split
  · exact ⟨none, rfl, nofun⟩
  · rename_i digits hdigits
    obtain ⟨n, hread, hshort⟩ := h.read (isRunOf_of_branchDigits? hdigits)
    refine ⟨some n, by rw [hread]; rfl, ?_⟩
    rintro _ ⟨⟩
    exact hshort

theorem exists_switchOffsets {text : String} (h : HasShortRuns text.toList) :
    ∃ offsets, switchOffsets text = .ok offsets ∧ ∀ n ∈ offsets, Numeral.IsShort n := by
  have hall : ∀ found : List SignedDigits, (∀ offset ∈ found, IsRunOf offset.digits text.toList) →
      ∃ offsets, found.mapM SignedDigits.read = .ok offsets ∧
        ∀ n ∈ offsets, Numeral.IsShort n := by
    intro found
    induction found with
    | nil => exact fun _ => ⟨[], rfl, nofun⟩
    | cons first rest ih =>
      intro hruns
      obtain ⟨hfirst, hrest⟩ := List.forall_mem_cons.1 hruns
      obtain ⟨n, hread, hshort⟩ := h.readSigned hfirst first.negative
      obtain ⟨offsets, hoffsets, hshorts⟩ := ih hrest
      refine ⟨n :: offsets, ?_, List.forall_mem_cons.2 ⟨hshort, hshorts⟩⟩
      rw [List.mapM_cons, SignedDigits.read, hread, hoffsets]
      rfl
  exact hall _ fun offset hoffset => isRunOf_of_mem_switchDigits hoffset

theorem IsShort.isUnresolved_of_successorsOf (h : s.IsShort) (hins : ins ∈ s.instructions.toList)
    {i : Nat} {e : Fault} (he : s.successorsOf i ins = .error e) : s.IsUnresolved e := by
  have hname : s.nameIsWritable := h.startLine.isWritable
  have hshort := h.code ins hins
  unfold successorsOf at he
  split at he
  · cases he
  · cases he
  · obtain ⟨target, htarget, hnumber⟩ := exists_branchTarget hshort.text
    rw [htarget] at he
    cases target with
    | none =>
      rw [hname] at he
      cases he
    | some n =>
      exact h.isUnresolved_of_bind (f := fun j => [j]) hins (hnumber n rfl).isWritable he
  · obtain ⟨target, htarget, hnumber⟩ := exists_branchTarget hshort.text
    rw [htarget] at he
    cases target with
    | none => cases he
    | some n =>
      exact h.isUnresolved_of_bind (f := fun j => [i + 1, j]) hins (hnumber n rfl).isWritable he
  · obtain ⟨offsets, hoffsets, hnumbers⟩ := exists_switchOffsets hshort.text
    rw [hoffsets] at he
    obtain ⟨offset, hoffset, hresolve⟩ := mapM_eq_error he
    exact h.isUnresolved_of_resolve hins (hshort.address.isWritable_add (hnumbers offset hoffset))
      hresolve

theorem IsShort.isUnresolved_of_analyze (h : s.IsShort) {e : Fault} (he : s.analyze = .error e) :
    s.IsUnresolved e := by
  unfold analyze at he
  split at he
  · cases he
  · rename_i fault hfault
    cases he
    obtain ⟨i, hi⟩ := s.fault_explore _ _ _ hfault
    unfold successors at hi
    split at hi
    · rename_i ins hins
      exact h.isUnresolved_of_successorsOf (Array.mem_toList_iff.2 (Array.mem_of_getElem? hins)) hi
    · cases hi

end Script

end BytecodeCoverage
