-- SUMMARY: Where every file and line is moved alike, a session comes to the same scripts, moved.
import BytecodeCoverage.Proofs.Script.Translation
import BytecodeCoverage.Proofs.Session.Texts

/-!
# Translation of texts

A session there runs in step with the session here. Each registered script is the moved one, and a
record meets the entry there that it meets here, since signatures tell moved scripts apart just as
they tell the scripts apart. So records are merged, searched or refused alike.
-/

namespace BytecodeCoverage

variable {t : Translation} {d : Dialect}

/-! ## Scripts that can be told in both places -/

namespace Script

variable {s s' : Script}

/-- The numbers of the script can be written here and there, and its texts are on one line each. -/
structure Movable (t : Translation) (s : Script) : Prop where
  oneLined : s.OneLined
  writable : s.isWritable
  moved : (s.translate t).isWritable

theorem Movable.nameIsWritable (h : s.Movable t) :
    (s.translate t).nameIsWritable = s.nameIsWritable := by
  rw [(isWritable_iff.1 h.moved).1, (isWritable_iff.1 h.writable).1]

theorem Movable.of_shape (h : s.Movable t) (hshape : s.shape = s'.shape) : s'.Movable t :=
  ⟨h.oneLined.of_shape hshape, (isWritable_eq_of_shape hshape).symm.trans h.writable,
    (isWritable_eq_of_shape (shape_translate_eq_iff.2 hshape)).symm.trans h.moved⟩

theorem signature_translate_of_shape (t : Translation) (h : s.shape = s'.shape) :
    (s.translate t).signature = (s'.translate t).signature :=
  signature_eq_of_shape (shape_translate_eq_iff.2 h)

end Script

/-! ## Registries -/

def Registered.translate (t : Translation) (entry : Registered) : Registered :=
  ⟨(entry.script.translate t).signature, entry.script.translate t⟩

namespace Session

/-- All that is registered has its signature, and can be told in both places. -/
def Movable (t : Translation) (registry : List Registered) : Prop :=
  ∀ entry ∈ registry, entry.script.signature = entry.signature ∧ entry.script.Movable t

section Registry

variable {registry registry' : List Registered} {script : Script}

theorem Movable.signature_iff (h : Movable t registry) (hscript : script.Movable t)
    {entry : Registered} (hentry : entry ∈ registry) :
    (entry.translate t).signature = (script.translate t).signature ↔
      entry.signature = script.signature := by
  obtain ⟨hsignature, hmovable⟩ := h entry hentry
  rw [← hsignature]
  exact Script.signature_translate_eq_iff hmovable.oneLined hscript.oneLined

/-- What a signature finds there is what it finds here, moved. -/
theorem Movable.find?_translate (h : Movable t registry) (hscript : script.Movable t) :
    (registry.map (·.translate t)).find? (·.signature = (script.translate t).signature) =
      (registry.find? (·.signature = script.signature)).map (·.translate t) := by
  rw [List.find?_map, ← List.head?_filter, ← List.head?_filter]
  refine congrArg (fun found => (List.head? found).map _) (List.filter_congr fun entry hentry => ?_)
  simp only [Function.comp_apply, h.signature_iff hscript hentry]

theorem Movable.replace_translate (h : Movable t registry) (hscript : script.Movable t)
    {merged : Script} (hshape : merged.shape = script.shape) :
    replace (registry.map (·.translate t)) (script.translate t).signature (merged.translate t) =
      (replace registry script.signature merged).map (·.translate t) := by
  induction registry with
  | nil => rfl
  | cons first rest ih =>
    have hrest : Movable t rest := fun entry hentry => h entry (.tail _ hentry)
    simp only [List.map_cons, replace, h.signature_iff hscript (.head _), ih hrest]
    split
    · rw [List.map_cons, Registered.translate, Script.signature_translate_of_shape t hshape]
    · rfl

theorem Movable.register (h : Movable t registry) (hscript : script.Movable t)
    (hregister : register registry script = .ok registry') : Movable t registry' := by
  intro entry hentry
  rcases mem_of_register hregister hentry with hold | ⟨marked, hmarked, rfl⟩ |
    ⟨kept, hkept, hsame, rfl⟩
  · exact h entry hold
  · obtain ⟨-, rfl⟩ := Script.analyze_eq_ok hmarked
    exact ⟨script.signature_marked, hscript.of_shape script.shape_marked.symm⟩
  · obtain ⟨hsignature, hmovable⟩ := h kept hkept
    exact ⟨(Script.signature_mergeCounts _ _).trans (hsignature.trans hsame),
      hmovable.of_shape (Script.shape_mergeCounts _ _).symm⟩

/-- A script is registered there as it is here, and refused for the same reason. -/
theorem Movable.register_translate (h : Movable t registry) (hscript : script.Movable t) :
    ∃ name, Session.register (registry.map (·.translate t)) (script.translate t) =
      ((Session.register registry script).map (·.map (·.translate t))).mapError (.rename name) := by
  have hsign := Script.sign_of_isWritable hscript.writable
  have hsign' := Script.sign_of_isWritable hscript.moved
  have hfound := h.find?_translate hscript
  cases hfind : registry.find? (·.signature = script.signature) with
  | some kept =>
    rw [hfind] at hfound
    obtain ⟨hsignature, hmovable⟩ := h kept (List.mem_of_find?_eq_some hfind)
    have hsame : kept.script.signature = script.signature :=
      hsignature.trans (by simpa using List.find?_some hfind)
    have hshape : kept.script.shape = script.shape :=
      (Script.signature_eq_iff hmovable.oneLined hscript.oneLined).1 hsame
    have hkept : kept.script.sign = .ok script.signature :=
      hsame ▸ Script.sign_of_isWritable hmovable.writable
    have hkept' : (kept.script.translate t).sign = .ok (script.translate t).signature :=
      Script.signature_translate_of_shape t hshape ▸ Script.sign_of_isWritable hmovable.moved
    have hhere : Session.register registry script =
        .ok (replace registry script.signature (kept.script.mergeCounts script)) :=
      register_eq_ok_iff.2
        ⟨hsign, .inl ⟨kept, _, hfind, Script.addCounts_of_sign hkept hsign, rfl⟩⟩
    have hthere : Session.register (registry.map (·.translate t)) (script.translate t) =
        .ok ((replace registry script.signature (kept.script.mergeCounts script)).map
          (·.translate t)) := by
      rw [← h.replace_translate hscript ((Script.shape_mergeCounts _ _).trans hshape),
        ← Script.mergeCounts_translate]
      exact register_eq_ok_iff.2
        ⟨hsign', .inl ⟨kept.translate t, _, hfound, Script.addCounts_of_sign hkept' hsign', rfl⟩⟩
    refine ⟨"", ?_⟩
    rw [hthere, hhere]
    rfl
  | none =>
    rw [hfind] at hfound
    refine ⟨(script.translate t).name, ?_⟩
    rw [register_of_new hsign hfind, register_of_new hsign' hfound,
      Script.analyze_translate hscript.nameIsWritable]
    cases hmarked : script.analyze with
    | error e => rfl
    | ok marked =>
      obtain ⟨-, rfl⟩ := Script.analyze_eq_ok hmarked
      simp only [Except.map, Except.mapError, List.map_append, List.map_cons, List.map_nil,
        Registered.translate, Script.signature_translate_of_shape t script.shape_marked]

end Registry

/-! ## Records -/

variable {s s' : Session} {record : List String} {records : List (List String)}

def translate (t : Translation) (s : Session) : Session :=
  s.withRegistry (s.registry.map (·.translate t))

theorem scripts_translate (t : Translation) (s : Session) :
    (s.translate t).scripts = s.scripts.map (·.translate t) := by
  rw [translate, scripts_withRegistry, List.map_map, scripts_eq, List.map_map]
  rfl

/-- The record begins with a header and has no newlines in its lines, and the numbers that it tells
can be written where they are moved to. -/
structure IsMovable (t : Translation) (d : Dialect) (record : List String) : Prop where
  headed : ∃ header rest, record = header :: rest ∧ isHeader header
  lines : ∀ line ∈ record, '\n' ∉ line.toList
  prints : t.Prints d record

namespace IsMovable

theorem ofRecord_translate (h : IsMovable t d record) :
    Script.ofRecord d t.relocation record =
      (Script.ofRecord d .identity record).map (·.translate t) := by
  obtain ⟨header, rest, rfl, hheader⟩ := h.headed
  exact (Script.ofRecord_translate hheader h.prints).1

theorem movable (h : IsMovable t d record) {script : Script}
    (hscript : Script.ofRecord d .identity record = .ok script) : script.Movable t := by
  obtain ⟨header, rest, rfl, hheader⟩ := h.headed
  obtain ⟨hhere, hthere⟩ := (Script.ofRecord_translate hheader h.prints).2 script hscript
  exact ⟨Script.oneLined_of_ofRecord (fun _ _ h => h) h.lines hscript, hhere, hthere⟩

end IsMovable

theorem addRecord_translate (h : Movable t s.registry) (hrecord : IsMovable t d record) :
    ∃ name, (s.translate t).addRecord { dialect := d, relocate := t.relocation } record =
      ((s.addRecord { dialect := d } record).map (·.translate t)).mapError (.rename name) := by
  rw [addRecord_eq, addRecord_eq]
  dsimp only
  rw [hrecord.ofRecord_translate]
  cases hscript : Script.ofRecord d .identity record with
  | error e =>
    obtain ⟨name, hname⟩ := e.exists_rename
    exact ⟨name, congrArg Except.error hname.symm⟩
  | ok script =>
    obtain ⟨name, hname⟩ := h.register_translate (hrecord.movable hscript)
    refine ⟨name, ?_⟩
    simp only [Except.map, bind, Except.bind, translate, registry_withRegistry]
    rw [hname]
    cases register s.registry script with
    | error e => rfl
    | ok registry =>
      simp only [Except.map, Except.mapError, registry_withRegistry]
      rfl

theorem Movable.addRecord (h : Movable t s.registry) (hrecord : IsMovable t d record)
    (hadd : s.addRecord { dialect := d } record = .ok s') : Movable t s'.registry := by
  obtain ⟨script, hscript, hregister⟩ := addRecord_eq_ok hadd
  exact h.register (hrecord.movable hscript) hregister

/-- By induction on the records: the session there is the moved session, up to a fault that both
end with. -/
theorem addRecords_translate (h : Movable t s.registry)
    (hrecords : ∀ record ∈ records, IsMovable t d record) :
    ∃ name, addRecords { dialect := d, relocate := t.relocation } (s.translate t) records =
      ((addRecords { dialect := d } s records).map (·.translate t)).mapError (.rename name) := by
  induction records generalizing s with
  | nil => exact ⟨"", rfl⟩
  | cons record rest ih =>
    obtain ⟨hrecord, hrest⟩ := List.forall_mem_cons.1 hrecords
    obtain ⟨name, hname⟩ := addRecord_translate h hrecord
    rw [addRecords_cons, addRecords_cons, hname]
    cases hadd : s.addRecord { dialect := d } record with
    | error e => exact ⟨name, rfl⟩
    | ok next => exact ih (h.addRecord hrecord hadd) hrest

end Session

/-! ## Texts -/

theorem isMovable_of_mem_recordsOf {g : Grammar} {text : String} {record : List String}
    (hrecord : record ∈ recordsOf g text) (hprint : t.Prints d record) :
    Session.IsMovable t d record :=
  ⟨RecordReader.headed_new.mem_records hrecord, areLines_recordsOf g text record hrecord, hprint⟩

/-- A text makes the same scripts there, moved, or fails for the same reason. -/
theorem scriptsOf_translate {text : String}
    (hprint : ∀ record ∈ recordsOf { dialect := d } text, t.Prints d record) :
    ∃ name, scriptsOf { dialect := d, relocate := t.relocation } text =
      ((scriptsOf { dialect := d } text).map (·.map (·.translate t))).mapError (.rename name) := by
  have hrecords : ∀ record ∈ recordsOf { dialect := d } text, Session.IsMovable t d record :=
    fun record hrecord => isMovable_of_mem_recordsOf hrecord (hprint record hrecord)
  obtain ⟨name, hname⟩ := Session.addRecords_translate (s := {}) nofun hrecords
  refine ⟨name, ?_⟩
  rw [scriptsOf_eq, scriptsOf_eq]
  change (Session.addRecords _ (Session.translate t {}) (recordsOf { dialect := d } text)).map _ = _
  rw [hname]
  cases Session.addRecords { dialect := d } {} (recordsOf { dialect := d } text) with
  | error e => rfl
  | ok s => exact congrArg Except.ok (s.scripts_translate t)

end BytecodeCoverage
