-- SUMMARY: Which faults the records of a trace can have.
import BytecodeCoverage.Script.Draft
import BytecodeCoverage.Script.Search

/-!
# Faults of the text

Whatever a record says, building its script and searching it can only fail for digits that are too
many to read, a number that is too long to write, or a jump to an address that the script does not
have.
-/

namespace BytecodeCoverage

/-! ## Results -/

section Results

variable {ε α β : Type} {x : Except ε α} {b : β} {e : ε}

theorem bind_eq_ok_iff {f : α → Except ε β} :
    x >>= f = .ok b ↔ ∃ a, x = .ok a ∧ f a = .ok b := by
  cases x with
  | error e => exact ⟨nofun, nofun⟩
  | ok a =>
    constructor
    · exact fun h => ⟨a, rfl, h⟩
    · rintro ⟨_, ⟨⟩, h⟩
      exact h

theorem bind_eq_error_iff {f : α → Except ε β} :
    x >>= f = .error e ↔ x = .error e ∨ ∃ a, x = .ok a ∧ f a = .error e := by
  cases x with
  | error e' =>
    constructor
    · rintro ⟨⟩
      exact .inl rfl
    · rintro (⟨⟨⟩⟩ | ⟨_, ⟨⟩, _⟩)
      rfl
  | ok a =>
    constructor
    · exact fun h => .inr ⟨a, rfl, h⟩
    · rintro (h | ⟨_, h, hf⟩)
      · cases h
      · cases h
        exact hf

theorem map_eq_ok_iff {f : α → β} : x.map f = .ok b ↔ ∃ a, x = .ok a ∧ f a = b := by
  cases x with
  | error e => exact ⟨nofun, nofun⟩
  | ok a =>
    constructor
    · rintro ⟨⟩
      exact ⟨a, rfl, rfl⟩
    · rintro ⟨_, ⟨⟩, rfl⟩
      rfl

/-- What is done to all of a list fails with the first for which it fails. -/
theorem mapM_eq_error_iff {f : α → Except ε β} {fails : α → Bool} {as : List α}
    (hfails : ∀ a, fails a ↔ ∃ e, f a = .error e) :
    as.mapM f = .error e ↔ ∃ a, as.find? fails = some a ∧ f a = .error e := by
  induction as with
  | nil => exact ⟨nofun, nofun⟩
  | cons a rest ih =>
    rw [List.mapM_cons, bind_eq_error_iff]
    cases ha : f a with
    | error e' =>
      rw [List.find?_cons_of_pos ((hfails a).2 ⟨e', ha⟩)]
      simp [ha]
    | ok b =>
      have hpasses : ¬ fails a := by
        rw [hfails a, ha]
        exact nofun
      rw [List.find?_cons_of_neg hpasses, ← ih]
      constructor
      · rintro (h | ⟨_, -, h⟩)
        · cases h
        · rcases bind_eq_error_iff.1 h with h | ⟨_, -, h⟩
          · exact h
          · cases h
      · exact fun h => .inr ⟨b, rfl, bind_eq_error_iff.2 (.inl h)⟩

end Results

/-! ## Faults -/

def Fault.IsOfText : Fault → Prop
  | .overlongDigits _ | .overlongNumber | .unresolvedTarget .. => True
  | _ => False

/-- If the computation fails, the fault is one of the text. -/
def OfText {α : Type} (x : Except Fault α) : Prop := ∀ e, x = .error e → e.IsOfText

namespace OfText

variable {α β : Type}

theorem ok (a : α) : OfText (Except.ok a) := nofun

theorem error {e : Fault} (h : e.IsOfText) : OfText (Except.error e : Except Fault α) := by
  rintro _ ⟨⟩
  exact h

theorem bind_of_ok {x : Except Fault α} {f : α → Except Fault β} (hx : OfText x)
    (hf : ∀ a, x = .ok a → OfText (f a)) : OfText (x >>= f) := by
  cases x with
  | ok a => exact hf a rfl
  | error e => exact error (hx e rfl)

theorem bind {x : Except Fault α} {f : α → Except Fault β} (hx : OfText x)
    (hf : ∀ a, OfText (f a)) : OfText (x >>= f) := hx.bind_of_ok fun a _ => hf a

theorem map {x : Except Fault α} (hx : OfText x) (f : α → β) : OfText (x.map f) := by
  cases x with
  | ok a => exact ok (f a)
  | error e => exact error (hx e rfl)

theorem ite {p : Prop} [Decidable p] {x y : Except Fault α} (hx : OfText x) (hy : OfText y) :
    OfText (if p then x else y) := by
  split
  · exact hx
  · exact hy

theorem mapM {f : α → Except Fault β} (hf : ∀ a, OfText (f a)) (as : List α) :
    OfText (as.mapM f) := by
  induction as with
  | nil => exact ok []
  | cons a rest ih =>
    rw [List.mapM_cons]
    exact (hf a).bind fun b => ih.bind fun bs => ok (b :: bs)

theorem foldlM {f : β → α → Except Fault β} (hf : ∀ b a, OfText (f b a)) (as : List α) (b : β) :
    OfText (as.foldlM f b) := by
  induction as generalizing b with
  | nil => exact ok b
  | cons a rest ih =>
    rw [List.foldlM_cons]
    exact (hf b a).bind ih

end OfText

/-! ## Numbers -/

theorem Numeral.ofText_read (digits : List Char) : OfText (read digits) := by
  rw [read]
  exact .ite (.ok _) (.error trivial)

theorem Numeral.ofText_readSigned (negative : Bool) (digits : List Char) :
    OfText (readSigned negative digits) := by
  rw [readSigned]
  exact .map ((ofText_read digits).bind fun _ => .ok _) _

theorem Script.ofText_sign (s : Script) : OfText s.sign := .ite (.ok _) (.error trivial)

/-! ## Records -/

theorem ofText_executionCount (counts : List (List Char)) : OfText (executionCount counts) :=
  .foldlM (fun _ digits => (Numeral.ofText_read digits).map _) _ _

theorem DataFields.ofText_toRow (d : Dialect) (fields : DataFields) : OfText (fields.toRow d) :=
  (Numeral.ofText_read _).bind fun _ => (Numeral.ofText_read _).bind fun _ =>
    (ofText_executionCount _).bind fun _ => .ok _

theorem Row.ofText_read (d : Dialect) (line : String) : OfText (Row.read d line) := by
  unfold Row.read
  split
  · exact (Numeral.ofText_read _).map _
  · refine .ite (.ok _) (.ite (.ok _) ?_)
    split
    · exact DataFields.ofText_toRow d _
    · exact .ite (.ok _) (.ok _)

theorem Draft.ofText_addRow (relocate : Relocation) (d : Draft) (row : Row) :
    OfText (d.addRow relocate row) := by
  cases row with
  | continuation text => exact .ite (.ite (.ok _) (.error trivial)) (.ok _)
  | header file line => exact .ok _
  | finish => exact .ok _
  | entry => exact .ok _
  | data address sourceLine count text => exact .ok _
  | noise => exact .ok _

theorem Draft.ofText_addLines (dialect : Dialect) (relocate : Relocation) (d : Draft)
    (lines : List String) : OfText (d.addLines dialect relocate lines) := by
  induction lines generalizing d with
  | nil => exact .ok d
  | cons line rest ih =>
    rw [addLines]
    cases hline : d.addLine dialect relocate line with
    | ok d' => exact ih d'
    | error e =>
      have hfault : OfText (d.addLine dialect relocate line) :=
        (Row.ofText_read dialect line).bind (ofText_addRow relocate d)
      exact .error (hfault e hline)

theorem Script.ofText_ofRecord (dialect : Dialect) (relocate : Relocation) (lines : List String) :
    OfText (Script.ofRecord dialect relocate lines) :=
  (Draft.ofText_addLines dialect relocate {} lines).map _

/-! ## Searches -/

namespace Script

theorem ofText_resolve (s : Script) (source target : Int) : OfText (s.resolve source target) := by
  unfold resolve
  split
  · exact .ok _
  · exact .ite (.error trivial) (.error trivial)

theorem ofText_branchTarget (text : String) : OfText (branchTarget text) := by
  unfold branchTarget
  split
  · exact .ok _
  · exact (Numeral.ofText_read _).map _

theorem ofText_switchOffsets (text : String) : OfText (switchOffsets text) := by
  rw [switchOffsets]
  exact .mapM (fun _ => Numeral.ofText_readSigned _ _) _

theorem ofText_successorsOf (s : Script) (i : Nat) (ins : Instruction) :
    OfText (s.successorsOf i ins) := by
  unfold successorsOf
  split
  · exact .ok _
  · exact .ok _
  · refine (ofText_branchTarget ins.text).bind fun target => ?_
    cases target with
    | none => exact .ite (.ok _) (.error trivial)
    | some target => exact (s.ofText_resolve _ _).bind fun _ => .ok _
  · refine (ofText_branchTarget ins.text).bind fun target => ?_
    cases target with
    | none => exact .ok _
    | some target => exact (s.ofText_resolve _ _).bind fun _ => .ok _
  · exact (ofText_switchOffsets ins.text).bind fun offsets =>
      .mapM (fun offset => s.ofText_resolve _ _) offsets

theorem ofText_successors (s : Script) (i : Nat) : OfText (s.successors i) := by
  unfold successors
  split
  · exact s.ofText_successorsOf i _
  · exact .ok _

/-- A search ends with the fault of an instruction that it entered. -/
theorem fault_explore (s : Script) (code : Array Instruction) (agenda : List Arrival)
    (trail : List Nat) {e : Fault} (h : (s.explore code agenda trail).fault = some e) :
    ∃ i, s.successors i = .error e := by
  fun_induction Script.explore s code agenda trail with
  | case1 code => cases h
  | case2 code trail a rest hlt ins hr ih => exact ih h
  | case3 code trail a rest hlt ins hr entered trail' hlinear ih => exact ih h
  | case4 code trail a rest hlt ins hr entered trail' hlinear targets htargets ih => exact ih h
  | case5 code trail a rest hlt ins hr entered trail' hlinear e' htargets =>
    cases h
    exact ⟨_, htargets⟩
  | case6 code trail a rest hlt ih => exact ih h

theorem ofText_analyze (s : Script) : OfText s.analyze := by
  unfold analyze
  split
  · exact .ok _
  · rename_i e he
    obtain ⟨i, hi⟩ := s.fault_explore _ _ _ he
    exact .error (s.ofText_successors i e hi)

end Script

end BytecodeCoverage
