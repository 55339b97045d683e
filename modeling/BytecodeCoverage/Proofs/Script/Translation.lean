-- SUMMARY: Where every file and line is moved alike, records make the same scripts, moved.
import BytecodeCoverage.Proofs.Script.Conversion

/-!
# Translation

A relocation that puts one path before every file name and adds one number to every line moves all
that a trace tells to another place and changes nothing else. A script is built, searched and signed
there as it is here. The numbers have to be short enough to be written in both places, since a name
that cannot be written is a fault of its own, and a fault that tells the name of a script tells the
moved one.
-/

namespace BytecodeCoverage

/-- A way to move all files and lines alike. -/
structure Translation where
  /-- What is put before the name of every file. -/
  lead : String := ""
  /-- What is added to the number of every line. -/
  offset : Int := 0
  deriving Repr, DecidableEq

def Translation.relocation (t : Translation) : Relocation :=
  fun file line => (t.lead ++ file, line + t.offset)

def Instruction.translate (t : Translation) (ins : Instruction) : Instruction :=
  { ins with sourceLine := ins.sourceLine + t.offset }

def Script.translate (t : Translation) (s : Script) : Script :=
  { s with
    filename := t.lead ++ s.filename
    startLine := s.startLine + t.offset
    instructions := s.instructions.map (·.translate t) }

def Draft.translate (t : Translation) (d : Draft) : Draft :=
  { d with script := d.script.translate t }

/-- The fault, told of a script of another name. -/
def Fault.rename (name : String) : Fault → Fault
  | .unresolvedTarget _ source target => .unresolvedTarget name source target
  | e => e

theorem Fault.exists_rename (e : Fault) : ∃ name, e.rename name = e := by
  cases e with
  | unresolvedTarget script source target => exact ⟨script, rfl⟩
  | _ => exact ⟨"", rfl⟩

variable {t : Translation}

/-! ## Faults of reading -/

section Faults

variable {α β : Type} (reword : Fault → Fault) (name : String)

theorem mapError_bind (x : Except Fault α) (f : α → Except Fault β) :
    (x >>= f).mapError reword = x.mapError reword >>= fun a => (f a).mapError reword := by
  cases x with
  | ok a => rfl
  | error e => rfl

theorem mapError_map (x : Except Fault α) (f : α → β) :
    (x.map f).mapError reword = (x.mapError reword).map f := by
  cases x with
  | ok a => rfl
  | error e => rfl

theorem mapError_mapM (f : α → Except Fault β) (as : List α) :
    (as.mapM f).mapError reword = as.mapM fun a => (f a).mapError reword := by
  induction as with
  | nil => rfl
  | cons a rest ih =>
    rw [List.mapM_cons, List.mapM_cons, mapError_bind]
    refine bind_congr fun b => ?_
    rw [mapError_bind, ih]
    rfl

/-- A number that is not read has no script to be told of. -/
theorem rename_read (digits : List Char) :
    (Numeral.read digits).mapError (.rename name) = Numeral.read digits := by
  unfold Numeral.read
  split
  · rfl
  · rfl

theorem rename_branchTarget (text : String) :
    (branchTarget text).mapError (.rename name) = branchTarget text := by
  unfold branchTarget
  split
  · rfl
  · rw [mapError_map, rename_read]

theorem rename_switchOffsets (text : String) :
    (switchOffsets text).mapError (.rename name) = switchOffsets text := by
  rw [switchOffsets, mapError_mapM]
  refine congrArg (fun f => List.mapM f _) (funext fun digits => ?_)
  rw [SignedDigits.read, Numeral.readSigned, mapError_map, mapError_bind, rename_read]
  rfl

end Faults

/-! ## Searches -/

theorem Instruction.keepsFlow_translate (t : Translation) : KeepsFlow (translate t) := by
  refine ⟨fun _ => rfl, fun _ => rfl, fun a ins => ?_, fun _ => rfl⟩
  cases a with
  | jump i => rfl
  | fall i => rfl

theorem Instruction.address_translate (t : Translation) (ins : Instruction) :
    (ins.translate t).address = ins.address := rfl

namespace Script

variable {s : Script}

theorem resolve_translate (h : (s.translate t).nameIsWritable = s.nameIsWritable)
    (source target : Int) :
    (s.translate t).resolve source target =
      (s.resolve source target).mapError (.rename (s.translate t).name) := by
  have hposition : (s.translate t).position? target = s.position? target := by
    rw [position?, translate, Array.toList_map]
    exact lastPosition?_map (Instruction.address_translate t) target _
  rw [resolve, resolve, hposition, h]
  cases s.position? target with
  | some i => rfl
  | none =>
    simp only
    split
    · rfl
    · rfl

theorem successorsOf_translate (h : (s.translate t).nameIsWritable = s.nameIsWritable) (i : Nat)
    (ins : Instruction) :
    (s.translate t).successorsOf i (ins.translate t) =
      (s.successorsOf i ins).mapError (.rename (s.translate t).name) := by
  unfold successorsOf
  have htext : (ins.translate t).text = ins.text := rfl
  rw [htext]
  cases flowKind ins.text with
  | linear => rfl
  | terminator => rfl
  | unconditional =>
    simp only [mapError_bind, rename_branchTarget]
    refine bind_congr fun target => ?_
    cases target with
    | none => simp only [h]; split <;> rfl
    | some target =>
      simp only [mapError_bind, resolve_translate h, Instruction.address_translate]
      rfl
  | conditional =>
    simp only [mapError_bind, rename_branchTarget]
    refine bind_congr fun target => ?_
    cases target with
    | none => rfl
    | some target =>
      simp only [mapError_bind, resolve_translate h, Instruction.address_translate]
      rfl
  | switch =>
    simp only [mapError_bind, rename_switchOffsets, mapError_mapM, resolve_translate h,
      Instruction.address_translate]

theorem successors_translate (h : (s.translate t).nameIsWritable = s.nameIsWritable) (i : Nat) :
    (s.translate t).successors i =
      (s.successors i).mapError (.rename (s.translate t).name) := by
  have hins : (s.translate t).instructions[i]? = (s.instructions[i]?).map (·.translate t) :=
    Array.getElem?_map
  rw [successors, successors, hins]
  cases s.instructions[i]? with
  | none => rfl
  | some ins => exact successorsOf_translate h i ins

/-- A search marks the same code there, and fails for the same jump. -/
theorem analyze_translate (h : (s.translate t).nameIsWritable = s.nameIsWritable) :
    (s.translate t).analyze =
      (s.analyze.map (·.translate t)).mapError (.rename (s.translate t).name) := by
  have hsearch : (s.translate t).search =
      s.search.map (·.translate t) (.rename (s.translate t).name) :=
    explore_map (Instruction.keepsFlow_translate t) (successors_translate h) _ _ _
  have hmarked : (s.translate t).marked = s.marked.translate t := by
    rw [marked, hsearch]
    rfl
  rw [analyze, analyze, hmarked, hsearch, Exploration.map]
  cases s.search.fault with
  | none => rfl
  | some e => rfl

/-! ## Shapes and signatures -/

theorem mergeCounts_translate (s other : Script) :
    (s.translate t).mergeCounts (other.translate t) = (s.mergeCounts other).translate t := by
  have hcode : ((s.translate t).mergeCounts (other.translate t)).instructions =
      ((s.mergeCounts other).translate t).instructions := by
    refine Array.ext_getElem? fun i => ?_
    simp only [translate, mergeCounts, Array.getElem?_map, Array.getElem?_mapIdx, Option.map_map]
    refine Option.map_congr fun ins _ => ?_
    simp only [Function.comp_apply]
    cases other.instructions[i]? with
    | none => rfl
    | some more => rfl
  exact congrArg (fun code => { s.translate t with instructions := code }) hcode

/-- The shape of the moved script is the moved shape. -/
theorem shape_translate (s : Script) :
    (s.translate t).shape =
      (t.lead ++ s.filename, s.startLine + t.offset, s.entryIndex,
        (s.instructions.toList.map (·.shape)).map fun (address, line, text) =>
          (address, line + t.offset, text)) := by
  rw [shape, translate, Array.toList_map, List.map_map, List.map_map]
  rfl

theorem shape_translate_eq_iff {s s' : Script} :
    (s.translate t).shape = (s'.translate t).shape ↔ s.shape = s'.shape := by
  have hline : ∀ a b : Int × Int × String,
      (a.1, a.2.1 + t.offset, a.2.2) = (b.1, b.2.1 + t.offset, b.2.2) → a = b := by
    rintro ⟨_, _, _⟩ ⟨_, _, _⟩ h
    simpa using h
  rw [shape_translate, shape_translate]
  simp only [shape, Prod.mk.injEq, List.map_inj_right hline, Int.add_left_inj,
    String.append_right_inj]

/-- A signature begins with what is put before the file name. -/
theorem signature_translate (s : Script) :
    (s.translate t).signature = t.lead ++ (s.translate { offset := t.offset }).signature := by
  simp only [signature, translate, name, String.append_assoc, entryText, String.empty_append,
    Array.toList_map, List.map_map]
  rfl

/-- Signatures tell moved scripts apart as they tell the scripts apart, whatever stands before the
file names. -/
theorem signature_translate_eq_iff {s s' : Script} (h : s.OneLined) (h' : s'.OneLined) :
    (s.translate t).signature = (s'.translate t).signature ↔ s.signature = s'.signature := by
  have honeLined : ∀ {s : Script}, s.OneLined → (s.translate { offset := t.offset }).OneLined := by
    intro s hs
    refine ⟨by simpa [translate] using hs.filename, ?_⟩
    intro ins hins
    rw [translate, Array.toList_map] at hins
    obtain ⟨old, hold, rfl⟩ := List.mem_map.1 hins
    exact hs.texts old hold
  rw [signature_translate, signature_translate s', String.append_right_inj,
    signature_eq_iff (honeLined h) (honeLined h'), shape_translate_eq_iff, signature_eq_iff h h']

theorem OneLined.of_shape {s s' : Script} (h : s.OneLined) (hshape : s.shape = s'.shape) :
    s'.OneLined := by
  simp only [shape, Prod.mk.injEq] at hshape
  obtain ⟨hfile, -, -, hcode⟩ := hshape
  refine ⟨hfile ▸ h.filename, ?_⟩
  intro ins hins
  have hmem : ins.shape ∈ s.instructions.toList.map (·.shape) := hcode ▸ List.mem_map_of_mem hins
  obtain ⟨old, hold, hsame⟩ := List.mem_map.1 hmem
  have htext : old.text = ins.text := (congrArg (·.2.2) hsame :)
  exact htext ▸ h.texts old hold

end Script

/-! ## Rows -/

/-- The numbers of the row can be written when its line is at a place. -/
def Row.IsWritable (place : Int → Int) : Row → Prop
  | .header _ line => Numeral.isWritable (place line)
  | .data address line _ _ => Numeral.isWritable address ∧ Numeral.isWritable (place line)
  | _ => True

instance (place : Int → Int) (row : Row) : Decidable (row.IsWritable place) :=
  match row with
  | .header .. => inferInstanceAs (Decidable (_ = true))
  | .data .. => inferInstanceAs (Decidable (_ = true ∧ _ = true))
  | .finish => .isTrue trivial
  | .entry => .isTrue trivial
  | .continuation _ => .isTrue trivial
  | .noise => .isTrue trivial

theorem Row.eq_header_of_isHeader {d : Dialect} {line : String} {row : Row} (h : isHeader line)
    (hread : Row.read d line = .ok row) : ∃ file startLine, row = .header file startLine := by
  obtain ⟨⟨file, digits⟩, hfound⟩ := Option.isSome_iff_exists.1 h
  unfold Row.read at hread
  rw [hfound] at hread
  obtain ⟨startLine, -, rfl⟩ := map_eq_ok_iff.1 hread
  exact ⟨_, startLine, rfl⟩

theorem Row.isWritable_of_read {d : Dialect} {line : String} {row : Row}
    (h : Row.read d line = .ok row) : row.IsWritable id := by
  have hpart := Row.isPartOf_of_read h
  cases row with
  | header file startLine =>
    obtain ⟨run, -, hrun⟩ := hpart
    exact Numeral.isWritable_of_read hrun
  | data address sourceLine count text =>
    obtain ⟨⟨run, -, haddress⟩, ⟨run', -, hline⟩, -⟩ := hpart
    exact ⟨Numeral.isWritable_of_read haddress, Numeral.isWritable_of_read hline⟩
  | finish => trivial
  | entry => trivial
  | continuation text => trivial
  | noise => trivial

/-! ## Drafts -/

namespace Draft

variable {d d' : Draft} {row : Row}

theorem isWritable_addRow {relocate : Relocation} {place : Int → Int}
    (hplace : ∀ file line, (relocate file line).2 = place line) (hrow : row.IsWritable place)
    (hd : d.script.isWritable) (h : d.addRow relocate row = .ok d') : d'.script.isWritable := by
  obtain ⟨hname, hcode⟩ := Script.isWritable_iff.1 hd
  refine Script.isWritable_iff.2 ⟨?_, ?_⟩
  · rcases place_addRow h with hkept | ⟨file, line, rfl, hmoved⟩
    · have hline : d'.script.startLine = d.script.startLine := congrArg Prod.snd hkept
      rw [Script.nameIsWritable, hline]
      exact hname
    · have hline : d'.script.startLine = (relocate file line).2 := congrArg Prod.snd hmoved
      rw [Script.nameIsWritable, hline, hplace]
      exact hrow
  · intro ins hins
    rcases mem_addRow h hins with hold | ⟨address, line, count, text, rfl, rfl⟩ |
      ⟨text, -, old, hold, rfl⟩
    · exact hcode ins hold
    · rw [Instruction.isWritable, hplace]
      exact Bool.and_eq_true_iff.2 hrow
    · exact hcode old hold

theorem continueText_translate (d : Draft) (text : String) :
    (d.translate t).continueText text = (d.continueText text).translate t := by
  have hcode : ((d.translate t).continueText text).script.instructions =
      ((d.continueText text).translate t).script.instructions := by
    refine Array.ext_getElem? fun i => ?_
    simp only [translate, continueText, Script.translate, Array.size_map, Array.getElem?_map,
      Array.getElem?_modify]
    split
    · rw [Option.map_map, Option.map_map]
      rfl
    · rfl
  exact congrArg
    (fun code => { d.translate t with script := { d.script.translate t with instructions := code } })
    hcode

/-- A row does there what it does here. -/
theorem addRow_translate (h : (d.script.translate t).nameIsWritable = d.script.nameIsWritable)
    (row : Row) :
    (d.translate t).addRow t.relocation row = (d.addRow .identity row).map (·.translate t) := by
  cases row with
  | header file line => rfl
  | entry => simp [addRow, translate, Script.translate, Except.map]
  | data address sourceLine count text =>
    simp [addRow, translate, Script.translate, Except.map, Translation.relocation,
      Relocation.identity, Instruction.translate]
  | continuation text =>
    have hempty : (d.translate t).script.instructions.isEmpty = d.script.instructions.isEmpty := by
      simp [translate, Script.translate, Array.isEmpty]
    have hname : (d.translate t).script.nameIsWritable = d.script.nameIsWritable := h
    simp only [addRow, hempty, hname, continueText_translate]
    split
    · split
      · rfl
      · rfl
    · rfl
  | finish => rfl
  | noise => rfl

end Draft

/-! ## Records -/

/-- Every number of a line that the record tells can be written where it is moved to. -/
def Translation.Prints (t : Translation) (dialect : Dialect) (record : List String) : Prop :=
  ∀ line ∈ record, ∀ row, Row.read dialect line = .ok row → row.IsWritable (· + t.offset)

theorem Translation.prints_iff {dialect : Dialect} {record : List String} :
    t.Prints dialect record ↔ ∀ line ∈ record,
      (Row.read dialect line).toOption.all fun row => row.IsWritable (· + t.offset) := by
  refine forall₂_congr fun line _ => ?_
  cases Row.read dialect line with
  | error e => simp [Except.toOption]
  | ok row => simp [Except.toOption]

instance (dialect : Dialect) (record : List String) : Decidable (t.Prints dialect record) :=
  decidable_of_iff' _ Translation.prints_iff

namespace Draft

/-- The numbers of the draft can be written here and there. -/
def IsWritable (t : Translation) (d : Draft) : Prop :=
  d.script.isWritable ∧ (d.script.translate t).isWritable

variable {d d' : Draft} {dialect : Dialect}

theorem IsWritable.nameIsWritable (h : d.IsWritable t) :
    (d.script.translate t).nameIsWritable = d.script.nameIsWritable := by
  rw [(Script.isWritable_iff.1 h.1).1, (Script.isWritable_iff.1 h.2).1]

theorem IsWritable.addRow (h : d.IsWritable t) {row : Row} (hrow : row.IsWritable id)
    (hmoved : row.IsWritable (· + t.offset)) (hadd : d.addRow .identity row = .ok d') :
    d'.IsWritable t := by
  have hadd' : (d.translate t).addRow t.relocation row = .ok (d'.translate t) := by
    rw [addRow_translate h.nameIsWritable, hadd]
    rfl
  have hhere : ∀ file line, (Relocation.identity file line).2 = id line := fun _ _ => rfl
  have hthere : ∀ file line, (t.relocation file line).2 = line + t.offset := fun _ _ => rfl
  have hwritable : (d'.translate t).script.isWritable :=
    isWritable_addRow (d := d.translate t) hthere hmoved h.2 hadd'
  exact ⟨isWritable_addRow hhere hrow h.1 hadd, hwritable⟩

/-- By induction on the lines: the draft there is the moved draft, as long as there is one. -/
theorem addLines_translate (h : d.IsWritable t) {lines : List String}
    (hprint : t.Prints dialect lines) :
    (d.translate t).addLines dialect t.relocation lines =
        (d.addLines dialect .identity lines).map (·.translate t) ∧
      ∀ d', d.addLines dialect .identity lines = .ok d' → d'.IsWritable t := by
  induction lines generalizing d with
  | nil =>
    refine ⟨rfl, ?_⟩
    rintro _ ⟨⟩
    exact h
  | cons line rest ih =>
    have hrest : t.Prints dialect rest := fun line' hline' => hprint line' (.tail _ hline')
    cases hread : Row.read dialect line with
    | error e =>
      rw [addLines_cons_of_error hread, addLines_cons_of_error hread]
      exact ⟨rfl, fun _ hdone => by cases hdone⟩
    | ok row =>
      have hrow := addRow_translate h.nameIsWritable row
      rw [addLines, addLines, addLine, addLine, hread, Except.bind, Except.bind, hrow]
      cases hadd : d.addRow .identity row with
      | error e => exact ⟨rfl, fun _ hdone => by cases hdone⟩
      | ok next =>
        have hnext := h.addRow (Row.isWritable_of_read hread) (hprint line (.head _) row hread) hadd
        exact ih hnext hrest

end Draft

namespace Script

variable {dialect : Dialect} {header : String} {rest : List String}

/-- A record makes the same script there, moved. Its header says where it is, so nothing is left of
the draft that was there before. -/
theorem ofRecord_translate (hheader : isHeader header) (hprint : t.Prints dialect (header :: rest)) :
    ofRecord dialect t.relocation (header :: rest) =
        (ofRecord dialect .identity (header :: rest)).map (·.translate t) ∧
      ∀ s, ofRecord dialect .identity (header :: rest) = .ok s →
        s.isWritable ∧ (s.translate t).isWritable := by
  rw [ofRecord, ofRecord]
  cases hread : Row.read dialect header with
  | error e =>
    rw [Draft.addLines_cons_of_error hread, Draft.addLines_cons_of_error hread]
    exact ⟨rfl, fun _ hdone => by cases hdone⟩
  | ok row =>
    obtain ⟨file, line, rfl⟩ := Row.eq_header_of_isHeader hheader hread
    have hhere : Draft.addRow .identity {} (.header file line) = .ok (.opened file line) := rfl
    have hthere : Draft.addRow t.relocation {} (.header file line) =
        .ok ((Draft.opened file line).translate t) := by
      simp [Draft.addRow, Draft.opened, Draft.translate, translate, Translation.relocation]
    have hnumber : Numeral.isWritable line := Row.isWritable_of_read hread
    have hnumber' : Numeral.isWritable (line + t.offset) := hprint header (.head _) _ hread
    have hwritable : (Draft.opened file line).IsWritable t := by
      refine ⟨isWritable_iff.2 ⟨hnumber, ?_⟩, isWritable_iff.2 ⟨hnumber', ?_⟩⟩ <;>
        simp [Draft.opened, translate]
    have hrest : t.Prints dialect rest := fun line' hline' => hprint line' (.tail _ hline')
    obtain ⟨hsame, hall⟩ := Draft.addLines_translate hwritable hrest
    rw [Draft.addLines_cons hread hhere, Draft.addLines_cons hread hthere, hsame]
    cases hdone : (Draft.opened file line).addLines dialect .identity rest with
    | error e => exact ⟨rfl, fun _ hdone => by cases hdone⟩
    | ok d =>
      refine ⟨rfl, ?_⟩
      rintro _ ⟨⟩
      exact hall d hdone

end Script

end BytecodeCoverage
