-- SUMMARY: Two scripts have one signature just if they have one shape.
import BytecodeCoverage.Proofs.Text.Joining
import BytecodeCoverage.Script.Basic
import Mathlib.Data.List.Forall2

/-!
# Signatures

A signature puts its fields side by side, with colons and newlines between them that nothing
escapes. File names and texts may hold colons, digits and words like those of the entry, so a field
is found by what the others cannot hold. The first line is read from its end, since a name is all
that stands before the last two colons, and each other line from its start, since a text is all that
stands behind the first two. Newlines in a name or a text would blur the lines.
-/

namespace BytecodeCoverage

open Text

/-! ## The line of an instruction -/

namespace Instruction

theorem signatureLine_ne_empty (ins : Instruction) : ins.signatureLine ≠ "" := by
  intro h
  have hcolon : ':' ∈ ins.signatureLine.toList := by simp [signatureLine]
  rw [h] at hcolon
  cases hcolon

theorem newline_not_mem_signatureLine {ins : Instruction} (h : '\n' ∉ ins.text.toList) :
    '\n' ∉ ins.signatureLine.toList := by
  simp [signatureLine, newline_not_mem_repr, h]

/-- The text stands behind the first two colons. -/
theorem signatureLine_eq_iff {ins ins' : Instruction} :
    ins.signatureLine = ins'.signatureLine ↔ ins.shape = ins'.shape := by
  have hlist : ∀ i : Instruction, i.signatureLine.toList =
      i.address.repr.toList ++ ':' :: (i.sourceLine.repr.toList ++ ':' :: i.text.toList) := by
    intro i
    simp [signatureLine]
  rw [← String.toList_inj, hlist, hlist,
    append_cons_inj_of_first (colon_not_mem_repr _) (colon_not_mem_repr _),
    append_cons_inj_of_first (colon_not_mem_repr _) (colon_not_mem_repr _)]
  simp only [shape, Prod.mk.injEq, String.toList_inj, Int.repr_inj]

end Instruction

theorem map_signatureLine_eq_iff {code code' : List Instruction} :
    code.map (·.signatureLine) = code'.map (·.signatureLine) ↔
      code.map (·.shape) = code'.map (·.shape) := by
  simp only [← List.forall₂_eq_eq_eq, List.forall₂_map_left_iff, List.forall₂_map_right_iff,
    Instruction.signatureLine_eq_iff]

namespace Script

/-! ## The first line -/

theorem not_mem_entryText {c : Char} (hc : c.isAlphanum = false) (s : Script) :
    c ∉ s.entryText.toList := by
  intro h
  have hword : c.isAlphanum := by
    unfold entryText at h
    split at h
    · have hnone : "None".toList.all (·.isAlphanum) := by decide
      exact List.all_eq_true.1 hnone c h
    · rw [Char.isAlphanum, isDigit_of_mem_repr h, Bool.or_true]
  rw [hword] at hc
  cases hc

theorem entryText_eq_iff {s s' : Script} :
    s.entryText = s'.entryText ↔ s.entryIndex = s'.entryIndex := by
  have hword : ∀ i : Nat, i.repr ≠ "None" := by
    intro i h
    have hmem : 'N' ∈ i.repr.toList := h ▸ by decide
    exact absurd (isDigit_of_mem_repr hmem) (by decide)
  unfold entryText
  cases s.entryIndex with
  | none =>
    cases s'.entryIndex with
    | none => simp
    | some i => simp [(hword i).symm]
  | some i =>
    cases s'.entryIndex with
    | none => simp [hword i]
    | some j => simp

/-- The first line of the signature. -/
def entryLine (s : Script) : String := s.name ++ ":" ++ s.entryText

theorem newline_not_mem_entryLine {s : Script} (h : '\n' ∉ s.filename.toList) :
    '\n' ∉ s.entryLine.toList := by
  simp [entryLine, name, h, newline_not_mem_repr, not_mem_entryText]

/-- The file name stands before the last two colons. -/
theorem entryLine_eq_iff {s s' : Script} :
    s.entryLine = s'.entryLine ↔
      s.filename = s'.filename ∧ s.startLine = s'.startLine ∧ s.entryIndex = s'.entryIndex := by
  have hlist : ∀ t : Script, t.entryLine.toList =
      (t.filename.toList ++ ':' :: t.startLine.repr.toList) ++ ':' :: t.entryText.toList := by
    intro t
    simp [entryLine, name]
  rw [← String.toList_inj, hlist, hlist,
    append_cons_inj_of_last (not_mem_entryText (by decide) _) (not_mem_entryText (by decide) _),
    append_cons_inj_of_last (colon_not_mem_repr _) (colon_not_mem_repr _)]
  simp only [String.toList_inj, Int.repr_inj, entryText_eq_iff, and_assoc]

/-! ## The signature -/

/-- The file name and the texts are on one line each. -/
structure OneLined (s : Script) : Prop where
  filename : '\n' ∉ s.filename.toList
  texts : ∀ ins ∈ s.instructions.toList, '\n' ∉ ins.text.toList

theorem signature_eq_of_shape {s s' : Script} (h : s.shape = s'.shape) :
    s.signature = s'.signature := by
  simp only [shape, Prod.mk.injEq] at h
  obtain ⟨hfile, hline, hentry, hcode⟩ := h
  have hfirst : s.name ++ ":" ++ s.entryText = s'.name ++ ":" ++ s'.entryText :=
    entryLine_eq_iff.2 ⟨hfile, hline, hentry⟩
  rw [signature, signature, hfirst, map_signatureLine_eq_iff.2 hcode]

theorem toList_signature (s : Script) :
    s.signature.toList = s.entryLine.toList ++ '\n' ::
      (joinWith "\n" (s.instructions.toList.map (·.signatureLine))).toList := by
  simp [signature, entryLine]

theorem signature_eq_iff {s s' : Script} (h : s.OneLined) (h' : s'.OneLined) :
    s.signature = s'.signature ↔ s.shape = s'.shape := by
  have hlines : ∀ {t : Script}, t.OneLined →
      ∀ line ∈ t.instructions.toList.map (·.signatureLine), '\n' ∉ line.toList ∧ line ≠ "" := by
    intro t ht line hline
    obtain ⟨ins, hins, rfl⟩ := List.mem_map.1 hline
    exact ⟨Instruction.newline_not_mem_signatureLine (ht.texts ins hins),
      ins.signatureLine_ne_empty⟩
  rw [← String.toList_inj, toList_signature, toList_signature,
    append_cons_inj_of_first (newline_not_mem_entryLine h.filename)
      (newline_not_mem_entryLine h'.filename),
    String.toList_inj, String.toList_inj, entryLine_eq_iff, joinWith_inj (hlines h) (hlines h'),
    map_signatureLine_eq_iff]
  simp only [shape, Prod.mk.injEq, and_assoc]

/-- Scripts of which the numbers can be written have signatures, and those tell exactly the file,
the start line, the entry and each instruction's address, source line and text. -/
theorem sign_eq_sign_iff {s s' : Script} (h : s.OneLined) (h' : s'.OneLined)
    (hw : s.isWritable) (hw' : s'.isWritable) :
    ∃ text text', s.sign = .ok text ∧ s'.sign = .ok text' ∧
      (text = text' ↔
        s.filename = s'.filename ∧ s.startLine = s'.startLine ∧ s.entryIndex = s'.entryIndex ∧
          s.instructions.toList.map (fun ins => (ins.address, ins.sourceLine, ins.text)) =
            s'.instructions.toList.map fun ins => (ins.address, ins.sourceLine, ins.text)) := by
  refine ⟨s.signature, s'.signature, if_pos hw, if_pos hw', ?_⟩
  rw [signature_eq_iff h h']
  simp only [shape, Prod.mk.injEq]
  rfl

/-- A file whose name ends like a start line. -/
def numbered : Script :=
  { filename := "a:1"
    startLine := -2
    instructions := #[{ address := -3, sourceLine := 1, text := "None:2\t: 0" }] }

/-- The file of the shorter name, with the entry where the other has its start line. -/
def shortened : Script :=
  { filename := "a"
    startLine := 1
    entryIndex := some 2
    instructions := #[{ address := -3, sourceLine := 1, text := "None:2\t: 0" }] }

theorem sign_numbered_ne_sign_shortened :
    numbered.OneLined ∧ shortened.OneLined ∧ numbered.isWritable ∧ shortened.isWritable ∧
      ∃ text text', numbered.sign = .ok text ∧ shortened.sign = .ok text' ∧ text ≠ text' := by
  have hnumbered : numbered.OneLined := ⟨by decide, by decide⟩
  have hshortened : shortened.OneLined := ⟨by decide, by decide⟩
  have hw : numbered.isWritable := by decide +kernel
  have hw' : shortened.isWritable := by decide +kernel
  obtain ⟨text, text', hsign, hsign', hiff⟩ := sign_eq_sign_iff hnumbered hshortened hw hw'
  refine ⟨hnumbered, hshortened, hw, hw', text, text', hsign, hsign', ?_⟩
  rw [Ne, hiff]
  decide

end Script

end BytecodeCoverage
