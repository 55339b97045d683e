-- SUMMARY: The scripts of a text are those of its records, and what holds of every text.
import BytecodeCoverage.Proofs.Coverage.Readings
import BytecodeCoverage.Proofs.Session.Registry
import BytecodeCoverage.Proofs.Text.Runs
import BytecodeCoverage.Proofs.Trace.Records
import Mathlib.Data.List.Nodup

/-!
# Texts

A text makes the scripts that its records make one after the other, and fails where the first of
them fails. Whatever the records are, no count of these scripts is below zero, and only code that
control reaches falls through: a search says that of the scripts that it marks, and dumps only add
to it. A record that fails does so for its own text, never for the signatures of those before it.
-/

namespace BytecodeCoverage

/-! ## Sound scripts -/

namespace Script

def IsSound (s : Script) : Prop := ∀ ins ∈ s.instructions.toList, ins.Sound

theorem IsSound.getElem? {s : Script} (h : s.IsSound) {i : Nat} {ins : Instruction}
    (hins : s.instructions[i]? = some ins) : ins.Sound :=
  h ins (Array.mem_toList_iff.2 (Array.mem_of_getElem? hins))

/-- A search that ends without a fault says of no code that it falls through but of code that it
has entered. -/
theorem isSound_marked {s : Script} (hs : ∀ ins ∈ s.instructions.toList, ins.IsRecorded)
    (h : s.search.fault = none) : s.marked.IsSound := by
  intro ins hins
  obtain ⟨i, hi⟩ := List.mem_iff_getElem?.1 hins
  rw [Array.getElem?_toList] at hi
  have hlt : i < s.instructions.size := by
    rw [← s.size_marked]
    exact (Array.getElem?_eq_some_iff.1 hi).1
  have hsame : (s.marked.instructions[i]?).map (·.unmarked) =
      (s.instructions[i]?).map (·.unmarked) := (search_gainsMarks s).unmarked i
  rw [hi, Array.getElem?_eq_getElem hlt, Option.map_some, Option.map_some, Option.some.injEq]
    at hsame
  have hold : s.instructions[i].IsRecorded :=
    hs _ (Array.mem_toList_iff.2 (Array.getElem_mem hlt))
  refine ⟨?_, ?_⟩
  · have hcount : ins.unmarked.count = s.instructions[i].unmarked.count := by rw [hsame]
    exact hcount ▸ hold.count
  · intro hfalls
    rcases s.search_justified.fallsThrough i ⟨ins, hi, hfalls⟩ with hmarked | ⟨hentered, -⟩
    · -- The record has no marks.
      have hunmarked : s.instructions[i].fallsThrough = false :=
        congrArg (fun j : Instruction => j.fallsThrough) hold.unmarked.symm
      rw [marked_getElem hlt, Instruction.has, hunmarked] at hmarked
      cases hmarked
    · obtain ⟨ins', hins', hreach⟩ := (hentered.settled h).1
      obtain rfl : ins = ins' := Option.some.inj (hi.symm.trans hins')
      exact hreach

theorem isSound_mergeCounts {s other : Script} (h : s.IsSound)
    (hother : ∀ ins ∈ other.instructions.toList, ins.IsRecorded) :
    (s.mergeCounts other).IsSound := by
  intro ins hins
  obtain ⟨i, hi⟩ := List.mem_iff_getElem?.1 hins
  rw [Array.getElem?_toList, mergeCounts, Array.getElem?_mapIdx] at hi
  obtain ⟨old, hold, rfl⟩ := Option.map_eq_some_iff.1 hi
  obtain ⟨hcount, hreach⟩ := h.getElem? hold
  split
  · rename_i more hmore
    have hadded := (hother more (Array.mem_toList_iff.2 (Array.mem_of_getElem? hmore))).count
    exact ⟨Int.add_nonneg hcount hadded, hreach⟩
  · exact ⟨hcount, hreach⟩

end Script

namespace Session

variable {g : Grammar} {s s' : Session}

/-- All that is registered is sound. -/
def IsSound (s : Session) : Prop := ∀ entry ∈ s.registry, entry.script.IsSound

theorem IsSound.attempt (h : s.IsSound) (record : List String) :
    (s.attempt g record).IsSound := by
  rcases attempt_cases g s record with ⟨hsame, -⟩ | ⟨script, hscript, -, hregister⟩
  · exact hsame.symm ▸ h
  · have hrecorded := Script.isRecorded_of_ofRecord hscript
    intro entry hentry
    rcases mem_of_register hregister hentry with hold | ⟨marked, hmarked, rfl⟩ |
      ⟨kept, hkept, -, rfl⟩
    · exact h entry hold
    · obtain ⟨hfault, rfl⟩ := Script.analyze_eq_ok hmarked
      exact Script.isSound_marked hrecorded hfault
    · exact Script.isSound_mergeCounts (h kept hkept) hrecorded

theorem IsSound.attemptAll (h : s.IsSound) (records : List (List String)) :
    (attemptAll g s records).IsSound := by
  induction records generalizing s with
  | nil => exact h
  | cons record rest ih => exact ih (h.attempt record)

theorem isSound_new : IsSound {} := nofun

theorem IsSound.of_mem_scripts (h : s.IsSound) {script : Script} (hscript : script ∈ s.scripts) :
    script.IsSound := by
  rw [scripts_eq] at hscript
  obtain ⟨entry, hentry, rfl⟩ := List.mem_map.1 hscript
  exact h entry hentry

/-! ## Lines -/

/-- Take records one after the other, up to the first that fails. -/
def addRecords (g : Grammar) (s : Session) (records : List (List String)) : Except Fault Session :=
  records.foldlM (addRecord g) s

theorem addRecords_cons (g : Grammar) (s : Session) (record : List String)
    (rest : List (List String)) :
    addRecords g s (record :: rest) = s.addRecord g record >>= (addRecords g · rest) :=
  List.foldlM_cons

theorem addRecords_cons_eq_ok_iff {record : List String} {rest : List (List String)} :
    addRecords g s (record :: rest) = .ok s' ↔
      ∃ next, s.addRecord g record = .ok next ∧ addRecords g next rest = .ok s' := by
  rw [addRecords_cons]
  exact bind_eq_ok_iff

/-- The session after some lines, unless one of them has failed. -/
def outcome : Session × Option Fault → Except Fault Session
  | (s, none) => .ok s
  | (_, some e) => .error e

/-- What a record does has nothing to do with the lines that are being read. -/
theorem addRecord_reader (reader : RecordReader) (record : List String) :
    addRecord g { s with reader } record = (addRecord g s record).map ({ · with reader }) := by
  rw [addRecord_eq, addRecord_eq]
  change (_ >>= register s.registry).map _ = _
  cases Script.ofRecord g.dialect g.relocate record >>= register s.registry with
  | error e => rfl
  | ok registry => rfl

theorem addRecords_reader (reader : RecordReader) (records : List (List String)) :
    addRecords g { s with reader } records = (addRecords g s records).map ({ · with reader }) := by
  induction records generalizing s with
  | nil => rfl
  | cons record rest ih =>
    rw [addRecords_cons, addRecords_cons, addRecord_reader]
    cases addRecord g s record with
    | error e => rfl
    | ok s' => exact ih

/-- A line does what the record does that it closes, if it closes one. -/
theorem outcome_addLine (s : Session) (line : String) :
    outcome (s.addLine g line) =
      (addRecords g s (s.reader.step g.dialect line).2.toList).map
        ({ · with reader := (s.reader.step g.dialect line).1 }) := by
  rw [← addRecords_reader]
  unfold addLine
  generalize s.reader.step g.dialect line = closed
  obtain ⟨reader, record⟩ := closed
  cases record with
  | none => rfl
  | some record =>
    change _ = addRecord g { s with reader } record >>= pure
    simp only [takeRecord_eq]
    cases addRecord g { s with reader } record with
    | error e => rfl
    | ok s' => rfl

theorem outcome_addLines_cons (s : Session) (line : String) (rest : List String) :
    outcome (s.addLines g (line :: rest)) =
      outcome (s.addLine g line) >>= fun s' => outcome (s'.addLines g rest) := by
  rw [addLines]
  rcases s.addLine g line with ⟨s', _ | e⟩
  · rfl
  · rfl

/-- Lines do what the records do that they make up. -/
theorem outcome_addLines (s : Session) (lines : List String) :
    outcome (s.addLines g lines) =
      (addRecords g s (s.reader.records g.dialect lines).2).map
        ({ · with reader := (s.reader.records g.dialect lines).1 }) := by
  induction lines generalizing s with
  | nil => rfl
  | cons line rest ih =>
    rw [outcome_addLines_cons, outcome_addLine, RecordReader.records, addRecords, addRecords,
      List.foldlM_append]
    cases (s.reader.step g.dialect line).2.toList.foldlM (addRecord g) s with
    | error e => rfl
    | ok s' =>
      refine (ih _).trans ?_
      rw [addRecords_reader]
      change ((addRecords g s' _).map _).map _ = (addRecords g s' _).map _
      cases addRecords g s' _ with
      | error e => rfl
      | ok s'' => rfl

theorem outcome_eq_ok_iff {result : Session × Option Fault} :
    outcome result = .ok s' ↔ result = (s', none) := by
  rcases result with ⟨s, _ | e⟩
  · simp [outcome]
  · simp [outcome]

/-- Lines after which the session can go on are followed by what the others do from there. -/
theorem addLines_append {lines more : List String} (h : s.addLines g lines = (s', none)) :
    s.addLines g (lines ++ more) = s'.addLines g more := by
  induction lines generalizing s with
  | nil =>
    cases h
    rfl
  | cons line rest ih =>
    rw [List.cons_append, addLines]
    rw [addLines] at h
    split at h
    · exact ih h
    · cases h

/-- Lines of which one fails are not followed by others. -/
theorem addLines_append_of_error {lines more : List String} {e : Fault}
    (h : s.addLines g lines = (s', some e)) : s.addLines g (lines ++ more) = (s', some e) := by
  induction lines generalizing s with
  | nil => cases h
  | cons line rest ih =>
    rw [List.cons_append, addLines]
    rw [addLines] at h
    split at h
    · exact ih h
    · exact h

theorem reader_addLines {lines : List String} (h : s.addLines g lines = (s', none)) :
    s'.reader = (s.reader.records g.dialect lines).1 := by
  have houtcome := (outcome_addLines (g := g) s lines).symm.trans (outcome_eq_ok_iff.2 h)
  obtain ⟨taken, -, rfl⟩ := map_eq_ok_iff.1 houtcome
  rfl

/-- Records of which none fails leave the session that they leave where failures are passed over. -/
theorem attemptAll_of_addRecords {records : List (List String)}
    (h : addRecords g s records = .ok s') : attemptAll g s records = s' := by
  induction records generalizing s with
  | nil => exact Except.ok.inj h
  | cons record rest ih =>
    obtain ⟨next, hrecord, hrest⟩ := addRecords_cons_eq_ok_iff.1 h
    have hattempt : s.attempt g record = next := by rw [attempt, takeRecord_eq, hrecord]
    exact (congrArg (rest.foldl _) hattempt).trans (ih hrest)

/-- Records fail with the first of them that fails, whatever comes after it. -/
theorem addRecords_of_error {before : List (List String)} {record : List String} {e : Fault}
    (hbefore : addRecords g s before = .ok s') (hrecord : s'.addRecord g record = .error e)
    (after : List (List String)) : addRecords g s (before ++ record :: after) = .error e := by
  have hsplit : addRecords g s (before ++ record :: after) =
      addRecords g s before >>= fun s => addRecord g s record >>= (addRecords g · after) := by
    rw [addRecords, List.foldlM_append]
    exact congrArg (_ >>= ·) (funext fun s => addRecords_cons g s record after)
  rw [hsplit, hbefore]
  exact congrArg (· >>= (addRecords g · after)) hrecord

/-! ## Signatures -/

/-- Every script has the signature that it is registered under. -/
def IsSigned (s : Session) : Prop := ∀ entry ∈ s.registry, entry.script.signature = entry.signature

theorem isSigned_new : IsSigned {} := nofun

theorem IsSigned.addRecord (h : s.IsSigned) {record : List String}
    (hrecord : s.addRecord g record = .ok s') : s'.IsSigned := by
  obtain ⟨script, -, hregister⟩ := addRecord_eq_ok hrecord
  intro entry hentry
  rcases mem_of_register hregister hentry with hold | ⟨marked, hmarked, rfl⟩ |
    ⟨kept, hkept, hsame, rfl⟩
  · exact h entry hold
  · obtain ⟨-, rfl⟩ := Script.analyze_eq_ok hmarked
    exact script.signature_marked
  · exact (Script.signature_mergeCounts _ _).trans ((h kept hkept).trans hsame)

/-- Whatever records a session takes, only their own text can make them fail. -/
theorem IsSigned.ofText_addRecords (h : s.IsSigned) (records : List (List String)) :
    OfText (addRecords g s records) := by
  induction records generalizing s with
  | nil => exact .ok s
  | cons record rest ih =>
    rw [addRecords_cons]
    exact (ofText_addRecord h g record).bind_of_ok fun s' hs' => ih (h.addRecord hs')

/-- Every script can be signed, and has its signature for itself. -/
structure Filed (s : Session) : Prop where
  signed : s.IsSigned
  writable : ∀ entry ∈ s.registry, entry.script.isWritable
  nodup : (s.registry.map (·.signature)).Nodup

theorem filed_new : Filed {} := ⟨isSigned_new, nofun, List.nodup_nil⟩

theorem Filed.sign (h : s.Filed) {entry : Registered} (hentry : entry ∈ s.registry) :
    entry.script.sign = .ok entry.signature := by
  rw [← h.signed entry hentry]
  exact Script.sign_of_isWritable (h.writable entry hentry)

/-- An entry is found under its signature. -/
theorem Filed.find?_eq_some (h : s.Filed) {entry : Registered} (hentry : entry ∈ s.registry) :
    s.registry.find? (·.signature = entry.signature) = some entry := by
  cases hfind : s.registry.find? (·.signature = entry.signature) with
  | none => exact absurd (decide_eq_true rfl) (List.find?_eq_none.1 hfind entry hentry)
  | some found =>
    have hsame : found.signature = entry.signature := by simpa using List.find?_some hfind
    have hmem := List.mem_of_find?_eq_some hfind
    rw [List.inj_on_of_nodup_map h.nodup hmem hentry hsame]

theorem Filed.addRecord (h : s.Filed) {record : List String}
    (hrecord : s.addRecord g record = .ok s') : s'.Filed := by
  obtain ⟨script, -, hregister⟩ := addRecord_eq_ok hrecord
  have hwritable : script.isWritable :=
    Script.isWritable_of_sign (register_eq_ok_iff.1 hregister).1
  refine ⟨h.signed.addRecord hrecord, ?_, ?_⟩
  · intro entry hentry
    rcases mem_of_register hregister hentry with hold | ⟨marked, hmarked, rfl⟩ |
      ⟨kept, hkept, -, rfl⟩
    · exact h.writable entry hold
    · obtain ⟨-, rfl⟩ := Script.analyze_eq_ok hmarked
      exact script.isWritable_marked.trans hwritable
    · exact (Script.isWritable_mergeCounts _ _).trans (h.writable kept hkept)
  · rcases register_cases hregister with ⟨hfresh, marked, -, hregistry⟩ | ⟨kept, -, -, hregistry⟩
    · rw [hregistry, List.map_append, List.nodup_append]
      refine ⟨h.nodup, List.nodup_singleton _, ?_⟩
      intro a ha b hb
      obtain ⟨entry, hentry, rfl⟩ := List.mem_map.1 ha
      rw [List.mem_singleton.1 hb]
      exact hfresh entry hentry
    · rw [hregistry, signature_replace]
      exact h.nodup

theorem Filed.addRecords (h : s.Filed) {records : List (List String)}
    (hrecords : addRecords g s records = .ok s') : s'.Filed := by
  induction records generalizing s with
  | nil =>
    cases hrecords
    exact h
  | cons record rest ih =>
    obtain ⟨next, hnext, hrest⟩ := addRecords_cons_eq_ok_iff.1 hrecords
    exact ih (h.addRecord hnext) hrest

theorem Filed.isWritable_of_mem_scripts (h : s.Filed) {script : Script}
    (hscript : script ∈ s.scripts) : script.isWritable := by
  rw [scripts_eq] at hscript
  obtain ⟨entry, hentry, rfl⟩ := List.mem_map.1 hscript
  exact h.writable entry hentry

/-- A record of which the script can be signed fails for what the search of the script finds. -/
theorem Filed.analyze_of_addRecord_error (h : s.Filed) {record : List String} {script : Script}
    (hscript : Script.ofRecord g.dialect g.relocate record = .ok script)
    (hwritable : script.isWritable) {e : Fault} (he : s.addRecord g record = .error e) :
    script.analyze = .error e := by
  have hsigned := Script.sign_of_isWritable hwritable
  rw [addRecord_eq, hscript] at he
  simp only [bind, Except.bind] at he
  cases hfind : s.registry.find? (·.signature = script.signature) with
  | some kept =>
    -- The counts of a known script are added.
    have hkept : kept.signature = script.signature := by simpa using List.find?_some hfind
    have hsign := h.sign (List.mem_of_find?_eq_some hfind)
    rw [hkept] at hsign
    have hmerged := Script.addCounts_of_sign hsign hsigned
    rw [register_eq_ok_iff.2 ⟨hsigned, .inl ⟨kept, _, hfind, hmerged, rfl⟩⟩] at he
    cases he
  | none =>
    rw [register_of_new hsigned hfind] at he
    cases hanalyze : script.analyze with
    | ok marked =>
      rw [hanalyze] at he
      cases he
    | error e' =>
      rw [hanalyze] at he
      cases he
      rfl

/-- Records fail with one of them, in the session that those before it have left. -/
theorem exists_of_addRecords_error (h : s.Filed) {records : List (List String)} {e : Fault}
    (he : addRecords g s records = .error e) :
    ∃ record ∈ records, ∃ s' : Session, s'.Filed ∧ s'.addRecord g record = .error e := by
  induction records generalizing s with
  | nil => cases he
  | cons record rest ih =>
    rw [addRecords_cons] at he
    cases hadd : s.addRecord g record with
    | error e' =>
      rw [hadd] at he
      cases he
      exact ⟨record, .head _, s, h, hadd⟩
    | ok next =>
      rw [hadd] at he
      obtain ⟨other, hother, hfails⟩ := ih (h.addRecord hadd) he
      exact ⟨other, .tail _ hother, hfails⟩

end Session

/-- The records of a text. -/
def recordsOf (g : Grammar) (text : String) : List (List String) :=
  (RecordReader.records g.dialect {} (Text.splitLines text)).2

variable {g : Grammar} {text : String} {scripts : List Script}

theorem mem_splitLines_of_mem_recordsOf {record : List String} (hrecord : record ∈ recordsOf g text)
    {line : String} (h : line ∈ record) : line ∈ Text.splitLines text :=
  (RecordReader.mem_of_mem_records hrecord h).resolve_left (List.not_mem_nil)

theorem areLines_recordsOf (g : Grammar) (text : String) : Session.AreLines (recordsOf g text) :=
  fun _ hrecord _ hline =>
    Text.newline_not_mem_of_mem_splitLines (mem_splitLines_of_mem_recordsOf hrecord hline)

/-- A text fails with the first fault of its records, and otherwise has the scripts of them all. -/
theorem scriptsOf_eq (g : Grammar) (text : String) :
    scriptsOf g text = (Session.addRecords g {} (recordsOf g text)).map Session.scripts := by
  have hlines := Session.outcome_addLines (g := g) {} (Text.splitLines text)
  have houtcome : scriptsOf g text =
      (Session.outcome (Session.parse g {} text)).map Session.scripts := by
    unfold scriptsOf
    rcases Session.parse g {} text with ⟨s, _ | e⟩
    · rfl
    · rfl
  rw [houtcome, Session.parse, hlines]
  change Except.map _ (Except.map _ (Session.addRecords g {} (recordsOf g text))) = _
  cases Session.addRecords g {} (recordsOf g text) with
  | error e => rfl
  | ok s => rfl

theorem isWritable_of_scriptsOf (h : scriptsOf g text = .ok scripts) :
    ∀ s ∈ scripts, s.isWritable := by
  rw [scriptsOf_eq] at h
  obtain ⟨s, hs, rfl⟩ := map_eq_ok_iff.1 h
  exact fun _ => (Session.filed_new.addRecords hs).isWritable_of_mem_scripts

theorem ofText_scriptsOf (g : Grammar) (text : String) : OfText (scriptsOf g text) := by
  rw [scriptsOf_eq]
  exact (Session.isSigned_new.ofText_addRecords _).map _

theorem scriptsOf_eq_attemptAll (h : scriptsOf g text = .ok scripts) :
    scripts = (Session.attemptAll g {} (recordsOf g text)).scripts := by
  rw [scriptsOf_eq] at h
  obtain ⟨s, hs, rfl⟩ := map_eq_ok_iff.1 h
  rw [Session.attemptAll_of_addRecords hs]

theorem isSound_of_scriptsOf (h : scriptsOf g text = .ok scripts) : ∀ s ∈ scripts, s.IsSound := by
  rw [scriptsOf_eq_attemptAll h]
  exact fun _ => (Session.isSound_new.attemptAll _).of_mem_scripts

end BytecodeCoverage
