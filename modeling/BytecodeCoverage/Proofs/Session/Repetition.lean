-- SUMMARY: Text that only dumps known scripts again is taken whole, and coverage can only rise.
import BytecodeCoverage.Proofs.Coverage.Growth

/-!
# Repeated dumps

A record of a script that is registered meets exactly one entry, and its counts are added there. The
entries stay in their places under their signatures, and their scripts grow. So do the files that
they make.
-/

namespace BytecodeCoverage

/-! ## Known scripts -/

/-- The entry stays under its signature, and its script grows. -/
structure Registered.Grown (old new : Registered) : Prop where
  signature : new.signature = old.signature
  script : old.script.Grown new.script

theorem Registered.Grown.refl (entry : Registered) : entry.Grown entry := ⟨rfl, .refl _⟩

theorem Registered.Grown.trans {a b c : Registered} (hab : a.Grown b) (hbc : b.Grown c) :
    a.Grown c :=
  ⟨hbc.signature.trans hab.signature, hab.script.trans hbc.script⟩

namespace Session

variable {g : Grammar} {s s' : Session} {records : List (List String)} {script : Script}

/-- Some entry has the signature of the script. -/
def Knows (registry : List Registered) (script : Script) : Prop :=
  ∃ entry ∈ registry, script.sign = .ok entry.signature

/-- A dump of a known script can be registered, and is added to its entry. -/
theorem Filed.register_known (h : s.Filed) (hknown : Knows s.registry script)
    (hrecorded : ∀ ins ∈ script.instructions.toList, ins.IsRecorded) :
    ∃ registry, register s.registry script = .ok registry ∧
      List.Forall₂ Registered.Grown s.registry registry := by
  obtain ⟨kept, hkept, hsign⟩ := hknown
  have hsame : kept.signature = script.signature := Script.sign_eq_ok hsign
  have hfind := h.find?_eq_some hkept
  rw [hsame] at hfind
  have hmerged := Script.addCounts_of_sign (h.sign hkept) hsign
  refine ⟨_, register_eq_ok_iff.2 ⟨hsame ▸ hsign, .inl ⟨kept, _, hfind, hmerged, rfl⟩⟩, ?_⟩
  rw [replace_eq_map h.nodup, List.forall₂_map_right_iff, List.forall₂_same]
  intro entry hentry
  split
  · rename_i hentry'
    have heq : entry = kept :=
      List.inj_on_of_nodup_map h.nodup hentry hkept (hentry'.trans hsame.symm)
    rw [heq]
    exact ⟨hsame.symm, kept.script.grown_mergeCounts hrecorded⟩
  · exact .refl entry

/-! ## Runs -/

/-- By induction on the records: each is of a script that was known from the start, since the
signatures stay. -/
theorem addRecords_known (h : s.Filed)
    (hknown : ∀ record ∈ records, ∃ script,
      Script.ofRecord g.dialect g.relocate record = .ok script ∧ Knows s.registry script) :
    ∃ s', addRecords g s records = .ok s' ∧
      List.Forall₂ Registered.Grown s.registry s'.registry := by
  induction records generalizing s with
  | nil => exact ⟨s, rfl, List.forall₂_same.2 fun entry _ => .refl entry⟩
  | cons record rest ih =>
    obtain ⟨⟨script, hscript, hknows⟩, hrest⟩ := List.forall_mem_cons.1 hknown
    have hrecorded := Script.isRecorded_of_ofRecord hscript
    obtain ⟨registry, hregister, hgrown⟩ := h.register_known hknows hrecorded
    have hlater : ∀ record ∈ rest, ∃ script,
        Script.ofRecord g.dialect g.relocate record = .ok script ∧ Knows registry script := by
      intro record hrecord
      obtain ⟨script, hscript, entry, hentry, hsign⟩ := hrest record hrecord
      obtain ⟨i, hi⟩ := List.mem_iff_getElem?.1 hentry
      obtain ⟨entry', hentry', hsame, -⟩ := exists_getElem?_of_forall₂ hgrown hi
      exact ⟨script, hscript, entry', List.mem_of_getElem? hentry', hsame ▸ hsign⟩
    have hnext := addRecord_of_register hscript hregister
    obtain ⟨s', hs', hgrown'⟩ := ih (h.addRecord hnext) (by rwa [registry_withRegistry])
    rw [registry_withRegistry] at hgrown'
    exact ⟨s', addRecords_cons_eq_ok_iff.2 ⟨_, hnext, hs'⟩,
      forall₂_trans (fun _ _ _ hab hbc => hab.trans hbc) hgrown hgrown'⟩

/-- A text registers what its records do. -/
theorem addRecords_of_parse {text : String} (h : parse g {} text = (s, none)) :
    ∃ taken, addRecords g {} (recordsOf g text) = .ok taken ∧ taken.registry = s.registry := by
  have houtcome := (outcome_addLines (g := g) {} (Text.splitLines text)).symm.trans
    (outcome_eq_ok_iff.2 h)
  obtain ⟨taken, htaken, rfl⟩ := map_eq_ok_iff.1 houtcome
  exact ⟨taken, htaken, rfl⟩

/-- Lines that are read outside of any record do what the records of their text do. -/
theorem addLines_of_records {text : String} (hreader : s.reader.inRecord = false)
    (h : addRecords g s (recordsOf g text) = .ok s') :
    ∃ reader, s.addLines g (Text.splitLines text) = ({ s' with reader }, none) := by
  have hnew : s.reader = {} := by
    obtain ⟨⟨_ | lines⟩, scripts, table, linked⟩ := s
    · rfl
    · cases hreader
  have houtcome := outcome_addLines (g := g) s (Text.splitLines text)
  rw [hnew] at houtcome
  change _ = (addRecords g s (recordsOf g text)).map _ at houtcome
  rw [h] at houtcome
  exact ⟨_, outcome_eq_ok_iff.1 houtcome⟩

/-- After a text that ends outside a record, a text that only has dumps of scripts of that text is
taken whole. The files stay, and so do their lines with all that is registered on them. A line that
control cannot reach or that has nothing to run stays in its class, and any other line is in a class
where as much of it ran or more. -/
theorem risesTo_of_repeated {t u : String} (ht : parse g {} t = (s, none))
    (hreader : s.reader.inRecord = false)
    (hknown : ∀ record ∈ recordsOf g u, ∃ script known,
      Script.ofRecord g.dialect g.relocate record = .ok script ∧ known ∈ s.scripts ∧
        script.sign = .ok known.signature) :
    ∃ s' : Session, parse g {} (t ++ "\n" ++ u) = (s', none) ∧
      ∀ file : String, Option.Rel File.RisesTo
        (groupByFile g.dialect.haltMnemonic s.scripts)[file]?
        (groupByFile g.dialect.haltMnemonic s'.scripts)[file]? := by
  obtain ⟨taken, htaken, hregistry⟩ := addRecords_of_parse ht
  have htakenFiled := filed_new.addRecords htaken
  have hfiled : s.Filed := by
    obtain ⟨hsigned, hwritable, hnodup⟩ := htakenFiled
    rw [IsSigned, hregistry] at hsigned
    rw [hregistry] at hwritable hnodup
    exact ⟨hsigned, hwritable, hnodup⟩
  have hknows : ∀ record ∈ recordsOf g u, ∃ script,
      Script.ofRecord g.dialect g.relocate record = .ok script ∧ Knows s.registry script := by
    intro record hrecord
    obtain ⟨script, known, hscript, hmem, hsign⟩ := hknown record hrecord
    rw [scripts_eq] at hmem
    obtain ⟨entry, hentry, rfl⟩ := List.mem_map.1 hmem
    rw [hfiled.signed entry hentry] at hsign
    exact ⟨script, hscript, entry, hentry, hsign⟩
  obtain ⟨s', hs', hgrown⟩ := addRecords_known hfiled hknows
  obtain ⟨reader, hlines⟩ := addLines_of_records hreader hs'
  refine ⟨{ s' with reader }, ?_, fun file => ?_⟩
  · rw [parse, Text.splitLines_append, addLines_append ht]
    exact hlines
  · have hscripts : scriptsOf g t = .ok s.scripts := by rw [scriptsOf, ht]
    refine risesTo_groupByFile _ file (isSound_of_scriptsOf hscripts) ?_
    have hall : List.Forall₂ Script.Grown (s.registry.map (·.script)) (s'.registry.map (·.script)) :=
      List.rel_map (fun _ _ hentry => hentry.script) hgrown
    rwa [← scripts_eq, ← scripts_eq] at hall

/-- A branch to the next instruction on its line, with the counts of both. -/
def branchText (first second : String) : String :=
  "--- SCRIPT a.js:1 ---\n0:" ++ first ++ "/0/0 x 1 ifeq 1\n1:" ++ second ++ "/0/0 x 1 stop\n" ++
    "--- END SCRIPT ---"

/-- The script of the text, before or after a search. -/
def branchScript (searched : Bool) (first second : Int) : Script :=
  { filename := "a.js"
    startLine := 1
    instructions :=
      #[{ address := 0, sourceLine := 1, text := "ifeq 1", count := first,
          reachable := searched, entryTarget := searched },
        { address := 1, sourceLine := 1, text := "stop", count := second,
          reachable := searched, entryTarget := searched }] }

def branchSession (first second : Int) : Session :=
  { scripts := [branchScript true first second]
    table := [((branchScript true first second).signature, 0)]
    linked := by rfl }

/-- The class of the line that the branch is on. -/
def branchClass (s : Session) : Option CoverageClass :=
  ((groupByFile "stop" s.scripts)["a.js"]?.bind (·.line? 1)).map (·.coverage)

theorem risesTo_branch :
    parse {} {} (branchText "1" "0") = (branchSession 1 0, none) ∧
    (branchSession 1 0).reader.inRecord = false ∧
    (∀ record ∈ recordsOf {} (branchText "0" "1"), ∃ script known,
      Script.ofRecord ({} : Grammar).dialect ({} : Grammar).relocate record = .ok script ∧
        known ∈ (branchSession 1 0).scripts ∧ script.sign = .ok known.signature) ∧
    parse {} {} (branchText "1" "0" ++ "\n" ++ branchText "0" "1") = (branchSession 1 1, none) ∧
    branchClass (branchSession 1 0) = some .mixed ∧
    branchClass (branchSession 1 1) = some .full ∧
    ∀ file : String, Option.Rel File.RisesTo
      (groupByFile "stop" (branchSession 1 0).scripts)[file]?
      (groupByFile "stop" (branchSession 1 1).scripts)[file]? := by
  have hparse : parse {} {} (branchText "1" "0") = (branchSession 1 0, none) := by decide +kernel
  have hboth : parse {} {} (branchText "1" "0" ++ "\n" ++ branchText "0" "1") =
      (branchSession 1 1, none) := by decide +kernel
  have hrecords : recordsOf {} (branchText "0" "1") =
      [Text.splitLines (branchText "0" "1")] := by decide +kernel
  have hscript : Script.ofRecord ({} : Grammar).dialect ({} : Grammar).relocate
      (Text.splitLines (branchText "0" "1")) = .ok (branchScript false 0 1) := by decide +kernel
  have hwritable : (branchScript true 1 0).isWritable := by decide +kernel
  have hsign : (branchScript false 0 1).sign = .ok (branchScript true 1 0).signature := by
    have hshape : (branchScript false 0 1).shape = (branchScript true 1 0).shape := rfl
    rw [← Script.signature_eq_of_shape hshape]
    exact Script.sign_of_isWritable ((Script.isWritable_eq_of_shape hshape).trans hwritable)
  have hknown : ∀ record ∈ recordsOf {} (branchText "0" "1"), ∃ script known,
      Script.ofRecord ({} : Grammar).dialect ({} : Grammar).relocate record = .ok script ∧
        known ∈ (branchSession 1 0).scripts ∧ script.sign = .ok known.signature := by
    rw [hrecords]
    intro record hmem
    rw [List.mem_singleton.1 hmem]
    exact ⟨_, _, hscript, .head _, hsign⟩
  obtain ⟨s', hs', hrises⟩ := risesTo_of_repeated hparse rfl hknown
  obtain ⟨rfl, -⟩ := Prod.mk.inj (hs'.symm.trans hboth)
  exact ⟨hparse, rfl, hknown, hboth, by decide +kernel, by decide +kernel, hrises⟩

end Session

end BytecodeCoverage
