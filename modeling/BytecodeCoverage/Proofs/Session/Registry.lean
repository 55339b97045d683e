-- SUMMARY: What a session registers: each script once, with the counts of all its dumps.
import BytecodeCoverage.Proofs.Script.Faults
import BytecodeCoverage.Proofs.Script.Records
import BytecodeCoverage.Session
import Mathlib.Algebra.Ring.Int.Defs

/-!
# The registry

A session takes records in any order: of new scripts and of scripts that it has, and some that fail.
What it has registered after them is told by the scripts of the records that it took. Each signature
is there once, in the order of its first dump, and its script has the marks that a search of any of
the dumps gives and the sums of their counts.

The registry lists the scripts with the signatures that the table has for them. Scripts and table
are told by it, and what a record does to them is what it does to the registry.

The invariant is `Collected`. What makes it hold is that neither a search nor a merge changes the
signature, so the script under a signature always is of the shape of the next dump.
-/

namespace BytecodeCoverage

/-! ## Dumps of one script -/

namespace Script

theorem sign_eq_ok {s : Script} {text : String} (h : s.sign = .ok text) : text = s.signature := by
  unfold sign at h
  split at h
  · cases h
    rfl
  · cases h

theorem addCounts_eq_ok {s other merged : Script} (h : s.addCounts other = .ok merged) :
    merged = s.mergeCounts other := by
  unfold addCounts at h
  obtain ⟨theirs, -, h⟩ := bind_eq_ok_iff.1 h
  obtain ⟨ours, -, h⟩ := bind_eq_ok_iff.1 h
  split at h
  · cases h
    rfl
  · cases h

/-- Adding the counts of a script of the same signature can only fail for a number. -/
theorem ofText_addCounts {s other : Script} (h : s.signature = other.signature) :
    OfText (s.addCounts other) := by
  unfold addCounts
  refine other.ofText_sign.bind_of_ok fun theirs htheirs => ?_
  refine s.ofText_sign.bind_of_ok fun ours hours => ?_
  have hsame : theirs = ours := by rw [sign_eq_ok htheirs, sign_eq_ok hours, h]
  rw [if_pos hsame]
  exact .ok _

theorem signature_marked (s : Script) : s.marked.signature = s.signature :=
  signature_eq_of_shape s.shape_marked

theorem signature_mergeCounts (s other : Script) :
    (s.mergeCounts other).signature = s.signature :=
  signature_eq_of_shape (s.shape_mergeCounts other)

/-- Whether a script can be signed is told by its shape. -/
theorem isWritable_eq_of_shape {s s' : Script} (h : s.shape = s'.shape) :
    s.isWritable = s'.isWritable := by
  have hshape : ∀ t : Script, t.isWritable =
      (Numeral.isWritable t.shape.2.1 && t.shape.2.2.2.all fun row =>
        Numeral.isWritable row.1 && Numeral.isWritable row.2.1) := by
    intro t
    simp only [isWritable, nameIsWritable, shape, List.all_map, Function.comp_def,
      ← Array.all_toList, Instruction.shape, Instruction.isWritable]
  rw [hshape, hshape, h]

theorem isWritable_marked (s : Script) : s.marked.isWritable = s.isWritable :=
  isWritable_eq_of_shape s.shape_marked

theorem isWritable_mergeCounts (s other : Script) :
    (s.mergeCounts other).isWritable = s.isWritable :=
  isWritable_eq_of_shape (s.shape_mergeCounts other)

theorem sign_of_isWritable {s : Script} (h : s.isWritable) : s.sign = .ok s.signature := if_pos h

theorem isWritable_of_sign {s : Script} {text : String} (h : s.sign = .ok text) :
    s.isWritable := by
  unfold sign at h
  split at h
  · rename_i hwritable
    exact hwritable
  · cases h

/-- Scripts of one signature have counts that can be added. -/
theorem addCounts_of_sign {s other : Script} {text : String} (h : s.sign = .ok text)
    (hother : other.sign = .ok text) : s.addCounts other = .ok (s.mergeCounts other) := by
  refine bind_eq_ok_iff.2 ⟨_, hother, bind_eq_ok_iff.2 ⟨_, h, ?_⟩⟩
  rw [if_pos rfl]
  rfl

theorem size_eq_of_uncounted {s s' : Script} (h : s.uncounted = s'.uncounted) :
    s.instructions.size = s'.instructions.size := by
  have hsize := congrArg (fun t : Script => t.instructions.size) h
  simpa [uncounted] using hsize

theorem size_marked (s : Script) : s.marked.instructions.size = s.instructions.size :=
  (search_gainsMarks s).size

/-- Scripts that differ in nothing but counts are marked alike. -/
theorem analyze_alike {s s' marked : Script} (h : s.uncounted = s'.uncounted)
    (hs : s.analyze = .ok marked) :
    ∃ marked', s'.analyze = .ok marked' ∧ marked'.uncounted = marked.uncounted := by
  have hsame : s'.analyze.map (·.uncounted) = .ok marked.uncounted := by
    rw [← analyze_uncounted, ← h, analyze_uncounted, hs]
    rfl
  exact map_eq_ok_iff.1 hsame

end Script

/-- A script with the signature that it is registered under. -/
structure Registered where
  signature : String
  script : Script
  deriving Repr, DecidableEq

namespace Session

/-! ## Scripts and table -/

/-- The scripts of a session, with the signatures that the table has for them. -/
def registry (s : Session) : List Registered :=
  (s.table.zip s.scripts).map fun (row, script) => ⟨row.1, script⟩

/-- The session with other scripts, and the table that tells them. -/
def withRegistry (s : Session) (registry : List Registered) : Session :=
  { reader := s.reader
    scripts := registry.map (·.script)
    table := (registry.map (·.signature)).zipIdx
    linked := by
      rw [List.zipIdx_map_snd, List.length_map, List.length_map, List.range_eq_range'] }

section View

variable {s : Session} {registry : List Registered}

@[simp] theorem reader_withRegistry : (s.withRegistry registry).reader = s.reader := rfl

theorem scripts_withRegistry : (s.withRegistry registry).scripts = registry.map (·.script) := rfl

theorem length_table (s : Session) : s.table.length = s.scripts.length := by
  have h := congrArg List.length s.linked
  rwa [List.length_map, List.length_range] at h

theorem scripts_eq (s : Session) : s.scripts = s.registry.map (·.script) := by
  rw [Session.registry, List.map_map]
  exact (List.map_snd_zip s.length_table.ge).symm

theorem signatures_eq (s : Session) : s.table.map (·.1) = s.registry.map (·.signature) := by
  rw [Session.registry, List.map_map]
  conv_lhs => rw [← List.map_fst_zip s.length_table.le, List.map_map]
  rfl

theorem table_eq (s : Session) : s.table = (s.registry.map (·.signature)).zipIdx := by
  rw [← signatures_eq, List.zipIdx_eq_zip_range', List.length_map, length_table,
    ← List.range_eq_range', ← s.linked]
  exact List.zip_of_prod rfl rfl

@[simp] theorem withRegistry_registry (s : Session) : s.withRegistry s.registry = s :=
  Session.ext rfl s.scripts_eq.symm s.table_eq.symm

@[simp] theorem registry_withRegistry : (s.withRegistry registry).registry = registry := by
  have hrows : ∀ k, (((registry.map (·.signature)).zipIdx k).zip (registry.map (·.script))).map
      (fun row => Registered.mk row.1.1 row.2) = registry := by
    induction registry with
    | nil => exact fun _ => rfl
    | cons entry rest ih => exact fun k => congrArg (entry :: ·) (ih (k + 1))
  exact hrows 0

theorem find?_withRegistry (signature : String) :
    (s.withRegistry registry).find? signature =
      (registry.findIdx? (·.signature = signature)).bind fun i =>
        registry[i]?.map fun entry => (i, entry.script) := by
  have hlookup : ∀ k, ((registry.map (·.signature)).zipIdx k).lookup signature =
      (registry.findIdx? (·.signature = signature)).map (k + ·) := by
    induction registry with
    | nil => exact fun _ => rfl
    | cons entry rest ih =>
      intro k
      rw [List.map_cons, List.zipIdx_cons, List.lookup_cons, List.findIdx?_cons, ih (k + 1)]
      by_cases h : entry.signature = signature
      · simp [h]
      · simp [h, beq_eq_false_iff_ne.2 (Ne.symm h), Function.comp_def, Nat.add_assoc, Nat.add_comm 1]
  rw [find?, withRegistry, hlookup]
  simp [Function.comp_def]

theorem put_withRegistry {kept : Registered} {i : Nat} (h : registry[i]? = some kept)
    (script : Script) : (s.withRegistry registry).put i script =
      s.withRegistry (registry.set i ⟨kept.signature, script⟩) := by
  obtain ⟨hi, rfl⟩ := List.getElem?_eq_some_iff.1 h
  have hscripts : (registry.map (·.script)).set i script =
      (registry.set i ⟨registry[i].signature, script⟩).map (·.script) := by rw [List.map_set]
  have hsignatures : registry.map (·.signature) =
      (registry.set i ⟨registry[i].signature, script⟩).map (·.signature) := by
    have hi' : i < (registry.map (·.signature)).length := by rwa [List.length_map]
    rw [List.map_set, ← List.getElem_map Registered.signature (h := hi')]
    exact (List.set_getElem_self hi').symm
  exact Session.ext rfl hscripts (congrArg List.zipIdx hsignatures)

theorem append_withRegistry (signature : String) (script : Script) :
    (s.withRegistry registry).append signature script =
      s.withRegistry (registry ++ [⟨signature, script⟩]) := by
  have hscripts : registry.map (·.script) ++ [script] =
      (registry ++ [Registered.mk signature script]).map (·.script) := by
    rw [List.map_append, List.map_singleton]
  refine Session.ext rfl hscripts ?_
  simp [append, withRegistry, List.zipIdx_append]

end View

/-- The registry with another script under a signature, where it stands first. -/
def replace : List Registered → String → Script → List Registered
  | [], _, _ => []
  | entry :: rest, signature, script =>
    if entry.signature = signature then ⟨signature, script⟩ :: rest
    else entry :: replace rest signature script

theorem mem_of_mem_replace {registry : List Registered} {signature : String} {script : Script}
    {entry : Registered} (h : entry ∈ replace registry signature script) :
    entry ∈ registry ∨ entry = ⟨signature, script⟩ := by
  induction registry with
  | nil => cases h
  | cons first rest ih =>
    unfold replace at h
    split at h
    · exact (List.mem_cons.1 h).symm.imp_left (.tail _)
    · rcases List.mem_cons.1 h with rfl | hrest
      · exact .inl (.head _)
      · exact (ih hrest).imp_left (.tail _)

theorem signature_replace (registry : List Registered) (signature : String) (script : Script) :
    (replace registry signature script).map (·.signature) = registry.map (·.signature) := by
  induction registry with
  | nil => rfl
  | cons first rest ih =>
    unfold replace
    split
    · rename_i hsame
      rw [List.map_cons, List.map_cons, hsame]
    · rw [List.map_cons, List.map_cons, ih]

theorem replace_of_not_mem {registry : List Registered} {signature : String}
    (h : ∀ entry ∈ registry, entry.signature ≠ signature) (script : Script) :
    replace registry signature script = registry := by
  induction registry with
  | nil => rfl
  | cons first rest ih =>
    obtain ⟨hfirst, hrest⟩ := List.forall_mem_cons.1 h
    rw [replace, if_neg hfirst, ih hrest]

/-- Where no signature is there twice, all entries of the signature are replaced. -/
theorem replace_eq_map {registry : List Registered} (h : (registry.map (·.signature)).Nodup)
    (signature : String) (script : Script) :
    replace registry signature script =
      registry.map fun entry =>
        if entry.signature = signature then ⟨signature, script⟩ else entry := by
  induction registry with
  | nil => rfl
  | cons first rest ih =>
    obtain ⟨hfirst, hrest⟩ := List.nodup_cons.1 h
    rw [replace, List.map_cons, ← ih hrest]
    split
    · rename_i hsame
      have hothers : ∀ entry ∈ rest, entry.signature ≠ signature := fun entry hentry hentry' =>
        hfirst (List.mem_map.2 ⟨entry, hentry, hentry'.trans hsame.symm⟩)
      rw [replace_of_not_mem hothers]
    · rfl

/-- The first entry of a signature is the one that is replaced. -/
theorem replace_eq_set {registry : List Registered} {signature : String} {i : Nat}
    (h : registry.findIdx? (·.signature = signature) = some i) (script : Script) :
    replace registry signature script = registry.set i ⟨signature, script⟩ := by
  induction registry generalizing i with
  | nil => cases h
  | cons entry rest ih =>
    rw [List.findIdx?_cons] at h
    by_cases hsame : entry.signature = signature
    · rw [if_pos (decide_eq_true hsame)] at h
      cases h
      exact if_pos hsame
    · rw [if_neg (by simpa using hsame)] at h
      obtain ⟨j, hj, rfl⟩ := Option.map_eq_some_iff.1 h
      rw [replace, if_neg hsame, ih hj, List.set_cons_succ]

/-- Register a script, or add its counts to those of its earlier record. -/
def register (registry : List Registered) (script : Script) : Except Fault (List Registered) := do
  let signature ← script.sign
  match registry.find? (·.signature = signature) with
  | some kept => return replace registry signature (← kept.script.addCounts script)
  | none => return registry ++ [⟨signature, ← script.analyze⟩]

/-- What taking a script does to the registry is all that it does. -/
theorem takeScript_eq (s : Session) (script : Script) :
    s.takeScript script = match register s.registry script with
      | .ok registry => (s.withRegistry registry, none)
      | .error e => (s, some e) := by
  obtain ⟨registry, hs⟩ : ∃ registry, s.withRegistry registry = s :=
    ⟨s.registry, s.withRegistry_registry⟩
  rw [← hs, registry_withRegistry]
  unfold takeScript register
  cases script.sign with
  | error e => rfl
  | ok signature =>
    simp only [find?_withRegistry, bind, Except.bind, List.find?_eq_bind_findIdx?_getElem?]
    cases hfind : registry.findIdx? (·.signature = signature) with
    | none =>
      cases script.analyze with
      | error e => rfl
      | ok marked => simp [append_withRegistry]; rfl
    | some i =>
      obtain ⟨hi, hsame, -⟩ := List.findIdx?_eq_some_iff_getElem.1 hfind
      have hkept : registry[i]? = some registry[i] := List.getElem?_eq_getElem hi
      simp only [Option.bind_some, hkept, Option.map_some]
      cases registry[i].script.addCounts script with
      | error e => rfl
      | ok merged =>
        have hsignature : registry[i].signature = signature := of_decide_eq_true hsame
        simp only [put_withRegistry hkept, replace_eq_set hfind, hsignature]
        rfl

/-- A script that fails leaves the session as it was. -/
theorem takeScript_fails {s s' : Session} {script : Script} {e : Fault}
    (h : s.takeScript script = (s', some e)) : s' = s := by
  rw [takeScript_eq] at h
  cases hregister : register s.registry script with
  | error e' =>
    rw [hregister] at h
    cases h
    rfl
  | ok registry =>
    rw [hregister] at h
    cases h

/-- A record that fails leaves the session as it was. -/
theorem takeRecord_fails {g : Grammar} {s s' : Session} {record : List String} {e : Fault}
    (h : s.takeRecord g record = (s', some e)) : s' = s := by
  unfold takeRecord at h
  cases hscript : Script.ofRecord g.dialect g.relocate record with
  | error e' =>
    rw [hscript] at h
    cases h
    rfl
  | ok script =>
    rw [hscript] at h
    exact takeScript_fails h

/-! ## One record -/

/-- Registering looks the signature up, and then merges or searches. -/
theorem register_eq_ok_iff {registry registry' : List Registered} {script : Script} :
    register registry script = .ok registry' ↔ script.sign = .ok script.signature ∧
      ((∃ kept merged, registry.find? (·.signature = script.signature) = some kept ∧
          kept.script.addCounts script = .ok merged ∧
          registry' = replace registry script.signature merged) ∨
        ∃ marked, registry.find? (·.signature = script.signature) = none ∧
          script.analyze = .ok marked ∧ registry' = registry ++ [⟨script.signature, marked⟩]) := by
  constructor
  · intro h
    obtain ⟨signature, hsign, h⟩ := bind_eq_ok_iff.1 h
    obtain rfl := Script.sign_eq_ok hsign
    refine ⟨hsign, ?_⟩
    cases hfind : registry.find? (·.signature = script.signature) with
    | some kept =>
      rw [hfind] at h
      obtain ⟨merged, hmerged, h⟩ := bind_eq_ok_iff.1 h
      cases h
      exact .inl ⟨kept, merged, rfl, hmerged, rfl⟩
    | none =>
      rw [hfind] at h
      obtain ⟨marked, hmarked, h⟩ := bind_eq_ok_iff.1 h
      cases h
      exact .inr ⟨marked, rfl, hmarked, rfl⟩
  · rintro ⟨hsign, ⟨kept, merged, hfind, hmerged, rfl⟩ | ⟨marked, hfind, hmarked, rfl⟩⟩
    · refine bind_eq_ok_iff.2 ⟨_, hsign, ?_⟩
      rw [hfind]
      exact bind_eq_ok_iff.2 ⟨merged, hmerged, rfl⟩
    · refine bind_eq_ok_iff.2 ⟨_, hsign, ?_⟩
      rw [hfind]
      exact bind_eq_ok_iff.2 ⟨marked, hmarked, rfl⟩

/-- Registering a new script fails where its search does. -/
theorem register_of_new {registry : List Registered} {script : Script}
    (hsign : script.sign = .ok script.signature)
    (hnew : registry.find? (·.signature = script.signature) = none) :
    register registry script =
      script.analyze.map fun marked => registry ++ [⟨script.signature, marked⟩] := by
  rw [register, hsign]
  simp only [bind, Except.bind]
  rw [hnew]
  cases script.analyze with
  | error e => rfl
  | ok marked => rfl

/-- Registering does one of two things. -/
theorem register_cases {registry registry' : List Registered} {script : Script}
    (h : register registry script = .ok registry') :
    ((∀ entry ∈ registry, entry.signature ≠ script.signature) ∧
      ∃ marked, script.analyze = .ok marked ∧
        registry' = registry ++ [⟨script.signature, marked⟩]) ∨
    ∃ kept ∈ registry, kept.signature = script.signature ∧
      registry' = replace registry script.signature (kept.script.mergeCounts script) := by
  obtain ⟨-, ⟨kept, merged, hfind, hmerged, rfl⟩ | ⟨marked, hfind, hmarked, rfl⟩⟩ :=
    register_eq_ok_iff.1 h
  · have hkept : kept.signature = script.signature := by simpa using List.find?_some hfind
    rw [Script.addCounts_eq_ok hmerged]
    exact .inr ⟨kept, List.mem_of_find?_eq_some hfind, hkept, rfl⟩
  · have hfresh : ∀ entry ∈ registry, entry.signature ≠ script.signature := by
      simpa using List.find?_eq_none.1 hfind
    exact .inl ⟨hfresh, marked, hmarked, rfl⟩

/-- What is registered afterwards was so before, or is the script itself, or has its counts added to
one that was registered. -/
theorem mem_of_register {registry registry' : List Registered} {script : Script}
    (h : register registry script = .ok registry') {entry : Registered}
    (hentry : entry ∈ registry') :
    entry ∈ registry ∨
    (∃ marked, script.analyze = .ok marked ∧ entry = ⟨script.signature, marked⟩) ∨
    ∃ kept ∈ registry, kept.signature = script.signature ∧
      entry = ⟨script.signature, kept.script.mergeCounts script⟩ := by
  rcases register_cases h with ⟨-, marked, hmarked, rfl⟩ | ⟨kept, hkept, hsame, rfl⟩
  · refine (List.mem_append.1 hentry).imp_right fun hnew => .inl ⟨marked, hmarked, ?_⟩
    exact List.mem_singleton.1 hnew
  · exact (mem_of_mem_replace hentry).imp_right fun hnew => .inr ⟨kept, hkept, hsame, hnew⟩

/-- Where scripts have the signatures that they are registered under, counts can be added. -/
theorem ofText_register {registry : List Registered}
    (h : ∀ entry ∈ registry, entry.script.signature = entry.signature) (script : Script) :
    OfText (register registry script) := by
  unfold register
  refine script.ofText_sign.bind_of_ok fun signature hsign => ?_
  obtain rfl := Script.sign_eq_ok hsign
  split
  · rename_i kept hfind
    have hkept : kept.signature = script.signature := by simpa using List.find?_some hfind
    have hsame : kept.script.signature = script.signature :=
      (h kept (List.mem_of_find?_eq_some hfind)).trans hkept
    exact (Script.ofText_addCounts hsame).bind fun _ => .ok _
  · exact script.ofText_analyze.bind fun _ => .ok _

/-- What a record does to the registry is all that it does. -/
theorem addRecord_eq (g : Grammar) (s : Session) (record : List String) :
    s.addRecord g record =
      (Script.ofRecord g.dialect g.relocate record >>= register s.registry).map
        s.withRegistry := by
  unfold addRecord takeRecord
  cases Script.ofRecord g.dialect g.relocate record with
  | error e => rfl
  | ok script =>
    simp only [takeScript_eq, bind, Except.bind]
    cases register s.registry script with
    | error e => rfl
    | ok registry => rfl

/-- Taking a record is adding it, and where that fails the session stays. -/
theorem takeRecord_eq (g : Grammar) (s : Session) (record : List String) :
    s.takeRecord g record = match s.addRecord g record with
      | .ok s' => (s', none)
      | .error e => (s, some e) := by
  unfold addRecord
  rcases htake : s.takeRecord g record with ⟨s', _ | e⟩
  · rfl
  · rw [takeRecord_fails htake]

theorem addRecord_eq_error_iff {g : Grammar} {s : Session} {record : List String} {e : Fault} :
    s.addRecord g record = .error e ↔ s.takeRecord g record = (s, some e) := by
  rw [takeRecord_eq]
  cases s.addRecord g record with
  | error e' => simp
  | ok s' => simp

theorem addRecord_eq_ok {g : Grammar} {s s' : Session} {record : List String}
    (h : s.addRecord g record = .ok s') :
    ∃ script, Script.ofRecord g.dialect g.relocate record = .ok script ∧
      register s.registry script = .ok s'.registry := by
  rw [addRecord_eq] at h
  obtain ⟨registry, hregistry, rfl⟩ := map_eq_ok_iff.1 h
  rw [registry_withRegistry]
  exact bind_eq_ok_iff.1 hregistry

theorem addRecord_of_register {g : Grammar} {s : Session} {record : List String} {script : Script}
    {registry : List Registered}
    (hscript : Script.ofRecord g.dialect g.relocate record = .ok script)
    (hregister : register s.registry script = .ok registry) :
    s.addRecord g record = .ok (s.withRegistry registry) := by
  have hbind : Script.ofRecord g.dialect g.relocate record >>= register s.registry = .ok registry :=
    bind_eq_ok_iff.2 ⟨script, hscript, hregister⟩
  rw [addRecord_eq, hbind]
  rfl

theorem ofText_addRecord {s : Session}
    (h : ∀ entry ∈ s.registry, entry.script.signature = entry.signature) (g : Grammar)
    (record : List String) : OfText (s.addRecord g record) := by
  rw [addRecord_eq]
  exact ((Script.ofText_ofRecord _ _ _).bind (ofText_register h)).map _

/-! ## Many records -/

/-- Take a record, whether it fails or not. -/
def attempt (g : Grammar) (s : Session) (record : List String) : Session :=
  (s.takeRecord g record).1

def attemptAll (g : Grammar) (s : Session) (records : List (List String)) : Session :=
  records.foldl (attempt g) s

theorem attemptAll_concat (g : Grammar) (s : Session) (earlier : List (List String))
    (record : List String) :
    attemptAll g s (earlier ++ [record]) = ((attemptAll g s earlier).takeRecord g record).1 := by
  rw [attemptAll, List.foldl_append]
  rfl

/-- The script of a record, if the session takes it. -/
def admitted? (g : Grammar) (s : Session) (record : List String) : Option Script :=
  match s.addRecord g record with
  | .ok _ => (Script.ofRecord g.dialect g.relocate record).toOption
  | .error _ => none

/-- The scripts of the records that a session takes one after the other, as they were built. -/
def admitted (g : Grammar) : Session → List (List String) → List Script
  | _, [] => []
  | s, record :: rest => (s.admitted? g record).toList ++ admitted g (s.attempt g record) rest

/-- A record that fails is passed over, and of another the script is registered. -/
theorem attempt_cases (g : Grammar) (s : Session) (record : List String) :
    (s.attempt g record = s ∧ s.admitted? g record = none) ∨
      ∃ script, Script.ofRecord g.dialect g.relocate record = .ok script ∧
        s.admitted? g record = some script ∧
        register s.registry script = .ok (s.attempt g record).registry := by
  unfold attempt admitted?
  rw [takeRecord_eq]
  cases h : s.addRecord g record with
  | error e => exact .inl ⟨rfl, rfl⟩
  | ok s' =>
    obtain ⟨script, hscript, hregister⟩ := addRecord_eq_ok h
    rw [hscript]
    exact .inr ⟨script, rfl, rfl, hregister⟩

/-! ## What is registered -/

/-- A registered script is what its dumps say together. -/
structure Gathers (entry : Registered) (dumps : List Script) : Prop where
  signature : entry.script.signature = entry.signature
  /-- No count of a dump is cut off. -/
  size : ∀ dump ∈ dumps, dump.instructions.size = entry.script.instructions.size
  counts : ∀ i, entry.script.countAt i = (dumps.map (·.countAt i)).sum
  /-- But for its counts, the script is what a search of any dump gives. -/
  marks : ∀ dump ∈ dumps,
    ∃ marked, dump.analyze = .ok marked ∧ marked.uncounted = entry.script.uncounted

theorem Gathers.first {script marked : Script} (h : script.analyze = .ok marked) :
    Gathers ⟨script.signature, marked⟩ [script] := by
  obtain ⟨-, rfl⟩ := Script.analyze_eq_ok h
  refine ⟨script.signature_marked, ?_, ?_, ?_⟩
  · intro dump hdump
    rw [List.mem_singleton.1 hdump]
    exact script.size_marked.symm
  · intro i
    simpa using script.countAt_marked i
  · intro dump hdump
    rw [List.mem_singleton.1 hdump]
    exact ⟨_, h, rfl⟩

/-- A further dump of the script, which differs from the earlier ones only in its counts. -/
theorem Gathers.merge {kept : Registered} {dumps : List Script} {dump script : Script}
    (h : Gathers kept dumps) (hdump : dump ∈ dumps) (hsame : dump.uncounted = script.uncounted) :
    Gathers ⟨kept.signature, kept.script.mergeCounts script⟩ (dumps ++ [script]) := by
  obtain ⟨marked, hmarked, hmarks⟩ := h.marks dump hdump
  have hsize : script.instructions.size = kept.script.instructions.size :=
    (Script.size_eq_of_uncounted hsame).symm.trans (h.size dump hdump)
  have hmerged : (kept.script.mergeCounts script).uncounted = kept.script.uncounted :=
    Script.uncounted_mergeCounts _ _
  refine ⟨(Script.signature_mergeCounts _ _).trans h.signature, ?_, ?_, ?_⟩
  · intro other hother
    rw [Script.size_eq_of_uncounted hmerged]
    rcases List.mem_append.1 hother with hother | hother
    · exact h.size other hother
    · rw [List.mem_singleton.1 hother, hsize]
  · intro i
    rw [Script.countAt_mergeCounts hsize, h.counts, List.map_append, List.sum_append]
    simp
  · intro other hother
    rw [hmerged]
    rcases List.mem_append.1 hother with hother | hother
    · exact h.marks other hother
    · obtain ⟨marked', hmarked', hmarks'⟩ := Script.analyze_alike hsame hmarked
      rw [List.mem_singleton.1 hother]
      exact ⟨marked', hmarked', hmarks'.trans hmarks⟩

/-- The dumps with a signature. -/
def dumpsOf (signature : String) (dumps : List Script) : List Script :=
  dumps.filter (·.signature = signature)

/-- A record of a script as a trace has it. -/
def IsDump (script : Script) : Prop := script.OneLined ∧ script.IsUnmarked

/-- The registry holds what some dumps say together. -/
structure Collected (registry : List Registered) (dumps : List Script) : Prop where
  recorded : ∀ dump ∈ dumps, IsDump dump
  nodup : (registry.map (·.signature)).Nodup
  order : registry.map (·.signature) = (dumps.map (·.signature)).eraseDups
  gathers : ∀ entry ∈ registry, Gathers entry (dumpsOf entry.signature dumps)

section Collected

variable {registry registry' : List Registered} {dumps : List Script} {script marked : Script}

theorem Collected.nil : Collected [] [] := ⟨nofun, List.nodup_nil, rfl, nofun⟩

theorem Collected.mem_signatures (h : Collected registry dumps) {signature : String} :
    (∃ entry ∈ registry, entry.signature = signature) ↔
      ∃ dump ∈ dumps, dump.signature = signature := by
  rw [← List.mem_map, h.order, List.mem_eraseDups, List.mem_map]

theorem dumpsOf_append_of_ne {signature : String} (h : signature ≠ script.signature) :
    dumpsOf signature (dumps ++ [script]) = dumpsOf signature dumps := by
  simp [dumpsOf, h.symm]

theorem dumpsOf_append_of_eq {signature : String} (h : signature = script.signature) :
    dumpsOf signature (dumps ++ [script]) = dumpsOf signature dumps ++ [script] := by
  simp [dumpsOf, h.symm]

theorem Collected.recorded_append (h : Collected registry dumps) (hscript : IsDump script) :
    ∀ dump ∈ dumps ++ [script], IsDump dump := by
  intro dump hdump
  rcases List.mem_append.1 hdump with hdump | hdump
  · exact h.recorded dump hdump
  · exact List.mem_singleton.1 hdump ▸ hscript

theorem Collected.first (h : Collected registry dumps) (hscript : IsDump script)
    (hfresh : ∀ entry ∈ registry, entry.signature ≠ script.signature)
    (hmarked : script.analyze = .ok marked) :
    Collected (registry ++ [⟨script.signature, marked⟩]) (dumps ++ [script]) := by
  have hnone : ∀ dump ∈ dumps, dump.signature ≠ script.signature := by
    intro dump hdump hsame
    obtain ⟨entry, hentry, hsame'⟩ := h.mem_signatures.2 ⟨dump, hdump, hsame⟩
    exact hfresh entry hentry hsame'
  refine ⟨h.recorded_append hscript, ?_, ?_, ?_⟩
  · rw [List.map_append, List.nodup_append]
    refine ⟨h.nodup, by simp, ?_⟩
    intro a ha b hb
    obtain ⟨entry, hentry, rfl⟩ := List.mem_map.1 ha
    rw [List.mem_singleton.1 hb]
    exact hfresh entry hentry
  · have hnew : [script.signature].removeAll (dumps.map (·.signature)) = [script.signature] := by
      simpa [List.removeAll] using hnone
    rw [List.map_append, List.map_append, List.eraseDups_append, h.order, List.map_singleton,
      List.map_singleton, hnew]
    rfl
  · intro entry hentry
    rcases List.mem_append.1 hentry with hentry | hentry
    · rw [dumpsOf_append_of_ne (hfresh entry hentry)]
      exact h.gathers entry hentry
    · rw [List.mem_singleton.1 hentry, dumpsOf_append_of_eq rfl,
        dumpsOf, List.filter_eq_nil_iff.2 (by simpa using hnone)]
      exact .first hmarked

theorem Collected.merge {kept : Registered} (h : Collected registry dumps)
    (hscript : IsDump script) (hkept : kept ∈ registry)
    (hsame : kept.signature = script.signature) :
    Collected (replace registry script.signature (kept.script.mergeCounts script))
      (dumps ++ [script]) := by
  obtain ⟨dump, hdump, hsignature⟩ := h.mem_signatures.1 ⟨kept, hkept, hsame⟩
  refine ⟨h.recorded_append hscript, ?_, ?_, ?_⟩
  · rw [signature_replace]
    exact h.nodup
  · have hold : [script.signature].removeAll (dumps.map (·.signature)) = [] := by
      simpa [List.removeAll] using ⟨dump, hdump, hsignature⟩
    rw [signature_replace, List.map_append, List.eraseDups_append, h.order, List.map_singleton,
      hold]
    exact (List.append_nil _).symm
  · intro entry hentry
    rw [replace_eq_map h.nodup] at hentry
    obtain ⟨old, hold, rfl⟩ := List.mem_map.1 hentry
    split
    · -- The dumps before it have the same shape, since they have the same signature.
      have hshape : dump.shape = script.shape :=
        (Script.signature_eq_iff (h.recorded dump hdump).1 hscript.1).1 hsignature
      have halike : dump.uncounted = script.uncounted :=
        Script.uncounted_eq_of_shape (h.recorded dump hdump).2 hscript.2 hshape
      have hmem : dump ∈ dumpsOf kept.signature dumps :=
        List.mem_filter.2 ⟨hdump, decide_eq_true (hsignature.trans hsame.symm)⟩
      rw [dumpsOf_append_of_eq rfl, ← hsame]
      exact (h.gathers kept hkept).merge hmem halike
    · rename_i hne
      rw [dumpsOf_append_of_ne hne]
      exact h.gathers old hold

/-- What one record keeps. -/
theorem Collected.register (h : Collected registry dumps) (hscript : IsDump script)
    (hregister : register registry script = .ok registry') :
    Collected registry' (dumps ++ [script]) := by
  rcases register_cases hregister with ⟨hfresh, marked, hmarked, rfl⟩ | ⟨kept, hkept, hsame, rfl⟩
  · exact h.first hscript hfresh hmarked
  · exact h.merge hscript hkept hsame

end Collected

/-! ## Runs -/

section Runs

variable {g : Grammar} {s : Session} {records : List (List String)}

/-- No line of the records has a newline. -/
def AreLines (records : List (List String)) : Prop :=
  ∀ record ∈ records, ∀ line ∈ record, '\n' ∉ line.toList

theorem isDump_of_ofRecord {record : List String} {script : Script}
    (hrelocate : g.relocate.KeepsLines) (hlines : ∀ line ∈ record, '\n' ∉ line.toList)
    (h : Script.ofRecord g.dialect g.relocate record = .ok script) : IsDump script :=
  ⟨Script.oneLined_of_ofRecord hrelocate hlines h, Script.isUnmarked_of_ofRecord h⟩

/-- What any records keep. -/
theorem Collected.attemptAll (hrelocate : g.relocate.KeepsLines) (hrecords : AreLines records)
    {dumps : List Script} (h : Collected s.registry dumps) :
    Collected (attemptAll g s records).registry (dumps ++ admitted g s records) := by
  induction records generalizing s dumps with
  | nil => rwa [admitted, List.append_nil]
  | cons record rest ih =>
    have hrest : AreLines rest := fun record' hrecord' => hrecords record' (.tail _ hrecord')
    rw [admitted]
    rcases attempt_cases g s record with ⟨hsame, hnone⟩ | ⟨script, hscript, hsome, hregister⟩
    · have hkept : Collected (s.attempt g record).registry dumps := hsame.symm ▸ h
      rw [hnone]
      exact ih hrest hkept
    · have hdump : IsDump script :=
        isDump_of_ofRecord hrelocate (hrecords record (.head _)) hscript
      rw [hsome, Option.toList_some, ← List.append_assoc]
      exact ih hrest (h.register hdump hregister)

theorem collected_attemptAll (hrelocate : g.relocate.KeepsLines) (hrecords : AreLines records) :
    Collected (attemptAll g {} records).registry (admitted g {} records) :=
  Collected.attemptAll (s := {}) hrelocate hrecords .nil

theorem Collected.signatures {registry : List Registered} {dumps : List Script}
    (h : Collected registry dumps) :
    registry.map (·.script.signature) = registry.map (·.signature) :=
  List.map_congr_left fun entry hentry => (h.gathers entry hentry).signature

/-- Where scripts have the signatures that they are registered under, the table has one row for each
of them, with its signature and its place. -/
theorem table_of_signatures {s : Session}
    (h : s.registry.map (·.script.signature) = s.registry.map (·.signature)) :
    s.table = (s.scripts.map (·.signature)).zipIdx := by
  rw [table_eq, ← h, scripts_eq, List.map_map]
  rfl

/-- A new session after any records, some of which may fail. A record that fails changes neither the
scripts nor the table, and never fails for the sake of a signature. What is registered in the end is
each script once, in the order of the first dumps that were taken, with all that the dumps of it say
together, and the table has each script under its signature. -/
theorem attemptAll_gathers (hrelocate : g.relocate.KeepsLines) (hrecords : AreLines records) :
    (∀ earlier record later s' e, records = earlier ++ record :: later →
      (attemptAll g {} earlier).takeRecord g record = (s', some e) →
        s' = attemptAll g {} earlier ∧ ∀ kept other, e ≠ .signatureMismatch kept other) ∧
    ((attemptAll g {} records).scripts.map (·.signature)).Nodup ∧
    (attemptAll g {} records).scripts.map (·.signature) =
      ((admitted g {} records).map (·.signature)).eraseDups ∧
    (attemptAll g {} records).table =
      ((attemptAll g {} records).scripts.map (·.signature)).zipIdx ∧
    ∀ entry ∈ (attemptAll g {} records).registry,
      Gathers entry (dumpsOf entry.signature (admitted g {} records)) := by
  have hall := collected_attemptAll hrelocate hrecords
  have hscripts : (attemptAll g {} records).scripts.map (·.signature) =
      (attemptAll g {} records).registry.map (·.signature) := by
    rw [scripts_eq, List.map_map]
    exact hall.signatures
  refine ⟨?_, hscripts ▸ hall.nodup, hscripts.trans hall.order,
    table_of_signatures hall.signatures, hall.gathers⟩
  rintro earlier record later s' e rfl hfault
  have hearlier : AreLines earlier := fun record' hrecord' =>
    hrecords record' (List.mem_append_left _ hrecord')
  have hkept : ∀ entry ∈ (attemptAll g {} earlier).registry,
      entry.script.signature = entry.signature := fun entry hentry =>
    ((collected_attemptAll hrelocate hearlier).gathers entry hentry).signature
  have hsame : s' = attemptAll g {} earlier := takeRecord_fails hfault
  refine ⟨hsame, ?_⟩
  rintro kept other rfl
  exact ofText_addRecord hkept g record _ (addRecord_eq_error_iff.2 (hsame ▸ hfault))

end Runs

/-- Two dumps of one script, and between them a record with a jump to nowhere. -/
def interrupted : List (List String) :=
  [["--- SCRIPT a.js:1 ---", "0:2/0/0 x 1 pop", "1:2/0/0 x 1 stop", "--- END SCRIPT ---"],
   ["--- SCRIPT a.js:9 ---", "0:1/0/0 x 9 goto 7", "--- END SCRIPT ---"],
   ["--- SCRIPT a.js:1 ---", "0:3/0/0 x 1 pop", "1:1/0/0 x 1 stop", "--- END SCRIPT ---"]]

theorem attemptAll_interrupted :
    ({} : Grammar).relocate.KeepsLines ∧ AreLines interrupted ∧
    ((attemptAll {} {} (interrupted.take 1)).takeRecord {} interrupted[1]).2 =
      some (.unresolvedTarget "a.js:9" 0 7) ∧
    attemptAll {} {} (interrupted.take 2) = attemptAll {} {} (interrupted.take 1) ∧
    (attemptAll {} {} interrupted).scripts.map (·.counts) = [[5, 3]] ∧
    (attemptAll {} {} interrupted).table =
      ((attemptAll {} {} interrupted).scripts.map (·.signature)).zipIdx ∧
    ∀ entry ∈ (attemptAll {} {} interrupted).registry,
      Gathers entry (dumpsOf entry.signature (admitted {} {} interrupted)) := by
  have hrelocate : ({} : Grammar).relocate.KeepsLines := fun _ _ h => h
  have hrecords : AreLines interrupted := by
    unfold AreLines
    decide
  have hfault : ((attemptAll {} {} (interrupted.take 1)).takeRecord {} interrupted[1]).2 =
      some (.unresolvedTarget "a.js:9" 0 7) := by decide +kernel
  have hcounts : (attemptAll {} {} interrupted).scripts.map (·.counts) = [[5, 3]] := by
    decide +kernel
  obtain ⟨hfaults, -, -, htable, hgathers⟩ := attemptAll_gathers hrelocate hrecords
  have htake : interrupted.take 2 = interrupted.take 1 ++ [interrupted[1]] := rfl
  have hsame : attemptAll {} {} (interrupted.take 2) = attemptAll {} {} (interrupted.take 1) := by
    rw [htake, attemptAll_concat]
    rcases htaken : (attemptAll {} {} (interrupted.take 1)).takeRecord {} interrupted[1]
      with ⟨s', fault⟩
    rw [htaken] at hfault
    subst hfault
    exact (hfaults (interrupted.take 1) interrupted[1] (interrupted.drop 2) s' _ rfl htaken).1
  exact ⟨hrelocate, hrecords, hfault, hsame, hcounts, htable, hgathers⟩

end Session

end BytecodeCoverage
