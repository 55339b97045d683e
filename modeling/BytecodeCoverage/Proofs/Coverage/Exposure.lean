-- SUMMARY: Whether code that could have run and did not shows on its line.
import BytecodeCoverage.Proofs.Coverage.Classification
import BytecodeCoverage.Proofs.Coverage.Registration
import BytecodeCoverage.Proofs.Session.Texts
import Mathlib.Data.List.Nodup

/-!
# Exposed code

An instruction is exposed in its script if it could have run and did not, and the instruction before
it does not fall through. Its line asks the same of the instruction that was registered just before
it, which need not be the one that control falls from: between the two there may be code of other
lines, or it is the last of another script. If that one falls through, the line takes the exposed
instruction for its continuation and says nothing of it.

So what shows is what is exposed in the order of the line.
-/

namespace BytecodeCoverage

/-! ## Lines -/

instance (previous : Option Instruction) (code : List Instruction) (i : Nat) :
    Decidable (ExposedAfter previous code i) :=
  decidable_of_iff
    (((code[i]?).any fun ins => ins.reachable && ins.count = 0) ∧
      (before previous code i).all fun p => !p.fallsThrough) <| by
    cases hins : code[i]? with
    | none => simp [ExposedAfter, hins]
    | some ins =>
      cases hprevious : before previous code i with
      | none => simp [ExposedAfter, hins, hprevious]
      | some p => simp [ExposedAfter, hins, hprevious, and_assoc]

instance (code : List Instruction) (i : Nat) : Decidable (Exposed code i) :=
  inferInstanceAs (Decidable (ExposedAfter none code i))

/-- The instruction after some code is exposed if the last of that code does not fall through. -/
theorem exposed_append {front rest : List Instruction} {ins : Instruction}
    (hreach : ins.reachable) (hcount : ins.count = 0)
    (hlast : ∀ p, front.getLast? = some p → ¬ p.fallsThrough) :
    Exposed (front ++ ins :: rest) front.length := by
  refine ⟨ins, by simp, hreach, hcount, ?_⟩
  intro p hp
  refine hlast p ?_
  cases hlength : front.length with
  | zero =>
    rw [hlength] at hp
    cases hp
  | succ n =>
    rw [hlength, before, List.getElem?_append_left (by omega)] at hp
    rw [List.getLast?_eq_getElem?, hlength, Nat.add_sub_cancel]
    exact hp

/-- A line that has not been asked yet says that some of it did not run just if some instruction of
it is exposed. -/
theorem Line.shows_iff {l : Line} (hsettled : l.settled = none)
    (hsound : ∀ ins ∈ l.code, ins.Sound) :
    (0 ∈ l.counts ∧ l.coverage ≠ .full) ↔ ∃ i, Exposed l.code i := by
  have hcounts : l.counts = distinctCounts l.haltMnemonic l.code := by
    rw [counts, hsettled, Option.getD_none]
  rw [coverage, hcounts, zero_mem_distinctCounts hsound]
  refine and_iff_left_of_imp fun hexposed hfull => ?_
  exact ((CoverageClass.ofCounts_eq_iff hsound).1 hfull).2 hexposed

/-! ## Files -/

namespace File

/-- No line of the file has been asked for its counts. -/
def IsUnasked (f : File) : Prop := ∀ number l, f.line? number = some l → l.settled = none

variable {f : File}

theorem IsUnasked.modifyLine (h : f.IsUnasked) (number : Int) {change : Line → Line}
    (hchange : ∀ l, (change l).settled = l.settled) : (f.modifyLine number change).IsUnasked := by
  intro number' l hl
  rw [line?_modifyLine] at hl
  split at hl
  · cases hl
    rw [hchange]
    cases hold : f.line? number with
    | none => rfl
    | some old => exact h number old hold
  · exact h number' l hl

theorem IsUnasked.markEnds (h : f.IsUnasked) (s : Script) : (f.markEnds s).IsUnasked := by
  unfold File.markEnds
  split
  · refine .modifyLine (.modifyLine h _ ?_) _ ?_
    · exact fun _ => rfl
    · exact fun _ => rfl
  · exact h

theorem IsUnasked.addScript (h : f.IsUnasked) (s : Script) : (f.addScript s).IsUnasked := by
  unfold File.addScript
  refine IsUnasked.markEnds ?_ s
  induction s.instructions.toList generalizing f with
  | nil => exact h
  | cons ins rest ih => exact ih (h.modifyLine _ fun l => l.settled_add _ _)

theorem isUnasked_ofScripts (name haltMnemonic : String) (own : List Script) :
    (ofScripts name haltMnemonic own).IsUnasked := by
  have hfold : ∀ f : File, f.IsUnasked → (own.foldl File.addScript f).IsUnasked := by
    induction own with
    | nil => exact fun f h => h
    | cons s rest ih => exact fun f h => ih _ (h.addScript s)
  refine hfold _ ?_
  intro number l hl
  simp [line?] at hl

end File

theorem isUnasked_of_groupByFile {haltMnemonic name : String} {scripts : List Script} {f : File}
    (h : (groupByFile haltMnemonic scripts)[name]? = some f) : f.IsUnasked := by
  rw [getElem?_groupByFile] at h
  split at h
  · cases h
  · cases h
    exact File.isUnasked_ofScripts _ _ _

/-! ## The code of a line -/

/-- The file, the name of the script and the address. -/
def Occurrence.label (o : Occurrence) : String × String × Int :=
  (o.script.filename, o.script.name, o.ins.address)

section Scripts

variable {haltMnemonic : String} {scripts : List Script}

theorem nodup_places_of_labels (h : ((occurrences scripts).map Occurrence.label).Nodup) :
    ((occurrences scripts).map Occurrence.place).Nodup := by
  refine List.Nodup.of_map (fun (file, line, address, _) =>
    (file, file ++ ":" ++ toString line, address)) ?_
  rw [List.map_map]
  exact h

/-- Where labels are distinct, the line of an instruction has all code that is on it. -/
theorem exists_line (h : ((occurrences scripts).map Occurrence.label).Nodup) {file : String}
    {number : Int} (hcode : occurrencesAt scripts file number ≠ []) :
    ∃ f l, (groupByFile haltMnemonic scripts)[file]? = some f ∧ f.line? number = some l ∧
      l.settled = none ∧ l.code = (occurrencesAt scripts file number).map (·.ins) := by
  have hplaces := nodup_places_iff.1 (nodup_places_of_labels h) file number
  have hentries := entriesOf_eq_firsts haltMnemonic scripts file number
  rw [firsts_eq_self_iff.2 hplaces] at hentries
  have hne : (occurrencesAt scripts file number).map Occurrence.entry ≠ [] := by simpa using hcode
  cases hf : (groupByFile haltMnemonic scripts)[file]? with
  | none =>
    rw [entriesOf, hf] at hentries
    exact absurd hentries.symm hne
  | some f =>
    rw [entriesOf, hf, Option.map_some, Option.getD_some, File.entriesAt] at hentries
    cases hl : f.line? number with
    | none =>
      rw [hl] at hentries
      exact absurd hentries.symm hne
    | some l =>
      rw [hl, Option.map_some, Option.getD_some] at hentries
      refine ⟨f, l, rfl, hl, isUnasked_of_groupByFile hf number l hl, ?_⟩
      rw [Line.code, hentries, List.map_map]
      rfl

/-- What holds of the code of all scripts holds of the code that is on a line. -/
theorem forall_of_mem_occurrencesAt {P : Instruction → Prop}
    (h : ∀ s ∈ scripts, ∀ ins ∈ s.instructions.toList, P ins) {file : String} {number : Int} :
    ∀ ins ∈ (occurrencesAt scripts file number).map (·.ins), P ins := by
  intro ins hins
  obtain ⟨o, ho, rfl⟩ := List.mem_map.1 hins
  obtain ⟨s, hs, hmem⟩ := List.mem_flatMap.1 (List.mem_filter.1 ho).1
  obtain ⟨ins, hcode, rfl⟩ := List.mem_map.1 hmem
  exact h s hs ins hcode

theorem forall_code_of_groupByFile {P : Instruction → Prop}
    (h : ∀ s ∈ scripts, ∀ ins ∈ s.instructions.toList, P ins) {name : String} {f : File}
    (hf : (groupByFile haltMnemonic scripts)[name]? = some f) {number : Int} {l : Line}
    (hl : f.line? number = some l) : ∀ ins ∈ l.code, P ins := by
  have hentries := entriesOf_eq_firsts haltMnemonic scripts name number
  rw [entriesOf, hf, Option.map_some, Option.getD_some, File.entriesAt, hl, Option.map_some,
    Option.getD_some] at hentries
  have hcode : l.code = (firsts (occurrencesAt scripts name number)).map (·.ins) := by
    rw [Line.code, hentries, List.map_map]
    rfl
  rw [hcode]
  intro ins hins
  exact forall_of_mem_occurrencesAt h ins (((firsts_sublist _).map _).subset hins)

/-- The lines of a file that scripts make have not been asked. -/
theorem counts_of_groupByFile {name : String} {f : File}
    (hf : (groupByFile haltMnemonic scripts)[name]? = some f) {number : Int} {l : Line}
    (hl : f.line? number = some l) : l.counts = distinctCounts l.haltMnemonic l.code := by
  rw [Line.counts, isUnasked_of_groupByFile hf number l hl, Option.getD_none]

end Scripts

/-- What a line has before an instruction of a script: code of the scripts before it, and then code
of the script itself. -/
def codeBefore (earlier : List Script) (s : Script) (p : Nat) (number : Int) : List Instruction :=
  (occurrencesAt earlier s.filename number).map (·.ins) ++
    (s.instructions.toList.take p).filter (·.sourceLine = number)

theorem occurrencesAt_split (earlier later : List Script) {s : Script} {p : Nat}
    {ins : Instruction} (h : s.instructions.toList[p]? = some ins) :
    ∃ rest, (occurrencesAt (earlier ++ s :: later) s.filename ins.sourceLine).map (·.ins) =
      codeBefore earlier s p ins.sourceLine ++ ins :: rest := by
  have hown : (s.occurrences.filter (·.onLine s.filename ins.sourceLine)).map (·.ins) =
      s.instructions.toList.filter (·.sourceLine = ins.sourceLine) := by
    rw [Script.occurrences, List.filter_map, List.map_map]
    simp [Occurrence.onLine, Function.comp_def]
  obtain ⟨hp, hins⟩ := List.getElem?_eq_some_iff.1 h
  have hcode : s.instructions.toList.filter (·.sourceLine = ins.sourceLine) =
      (s.instructions.toList.take p).filter (·.sourceLine = ins.sourceLine) ++
        ins :: (s.instructions.toList.drop (p + 1)).filter (·.sourceLine = ins.sourceLine) := by
    conv_lhs => rw [← List.take_append_drop p s.instructions.toList]
    rw [List.filter_append, List.drop_eq_getElem_cons hp, hins, List.filter_cons_of_pos (by simp)]
  refine ⟨(s.instructions.toList.drop (p + 1)).filter (·.sourceLine = ins.sourceLine) ++
    (occurrencesAt later s.filename ins.sourceLine).map (·.ins), ?_⟩
  calc (occurrencesAt (earlier ++ s :: later) s.filename ins.sourceLine).map (·.ins)
      = (occurrencesAt earlier s.filename ins.sourceLine).map (·.ins) ++
          ((s.occurrences.filter (·.onLine s.filename ins.sourceLine)).map (·.ins) ++
            (occurrencesAt later s.filename ins.sourceLine).map (·.ins)) := by
        simp only [occurrencesAt, occurrences, List.flatMap_append, List.flatMap_cons,
          List.filter_append, List.map_append]
    _ = _ := by
        rw [hown, hcode, codeBefore]
        simp only [List.append_assoc, List.cons_append]

/-! ## What shows -/

/-- Code that is exposed in its script is on a line that tells of all its code. The line says that
some of it did not run just if some of it is exposed in the order of the line. So it does where the
instruction that was registered just before does not fall through. -/
theorem shows_of_exposed {g : Grammar} {text : String} {scripts : List Script}
    (h : scriptsOf g text = .ok scripts)
    (hlabels : ((occurrences scripts).map Occurrence.label).Nodup) :
    ∃ files, filesOfText g text = .ok files ∧
      ∀ earlier s later, scripts = earlier ++ s :: later →
        ∀ p ins, s.instructions.toList[p]? = some ins → Exposed s.instructions.toList p →
          ∃ f l, files[s.filename]? = some f ∧ f.line? ins.sourceLine = some l ∧
            l.code = (occurrencesAt scripts s.filename ins.sourceLine).map (·.ins) ∧
            ((0 ∈ l.counts ∧ l.coverage ≠ .full) ↔ ∃ i, Exposed l.code i) ∧
            ((∀ previous, (codeBefore earlier s p ins.sourceLine).getLast? = some previous →
              ¬ previous.fallsThrough) → 0 ∈ l.counts ∧ l.coverage ≠ .full) := by
  have hfiles : filesOfText g text = .ok (groupByFile g.dialect.haltMnemonic scripts) := by
    rw [filesOfText, h]
    rfl
  refine ⟨_, hfiles, ?_⟩
  rintro earlier s later hscripts p ins hins ⟨ins', hins', hreach, hcount, -⟩
  obtain rfl : ins = ins' := Option.some.inj (hins.symm.trans hins')
  obtain ⟨rest, hrest⟩ := occurrencesAt_split earlier later hins
  rw [← hscripts] at hrest
  have hne : occurrencesAt scripts s.filename ins.sourceLine ≠ [] := by
    intro hnone
    simp [hnone] at hrest
  obtain ⟨f, l, hf, hl, hsettled, hcode⟩ := exists_line hlabels hne
  have hsound : ∀ other ∈ l.code, other.Sound := by
    rw [hcode]
    exact forall_of_mem_occurrencesAt (isSound_of_scriptsOf h)
  have hshows := Line.shows_iff hsettled hsound
  refine ⟨f, l, hf, hl, hcode, hshows, fun hlast => hshows.2 ?_⟩
  rw [hcode, hrest]
  exact ⟨_, exposed_append hreach hcount hlast⟩

/-- A branch on the first line that was never taken, with other code between it and its target. -/
def detour : Script :=
  { filename := "a.js"
    startLine := 1
    instructions :=
      #[{ address := 0, sourceLine := 1, text := "ifeq 2", count := 5,
          reachable := true, entryTarget := true },
        { address := 1, sourceLine := 2, text := "stop", count := 5,
          reachable := true, entryTarget := true },
        { address := 2, sourceLine := 1, text := "stop",
          reachable := true, entryTarget := true }] }

def detourText : String :=
  "--- SCRIPT a.js:1 ---\n0:5/0/0 x 1 ifeq 2\n1:5/0/0 x 2 stop\n2:0/0/0 x 1 stop\n" ++
    "--- END SCRIPT ---"

theorem shows_detour :
    scriptsOf {} detourText = .ok [detour] ∧
    ((occurrences [detour]).map Occurrence.label).Nodup ∧
    Exposed detour.instructions.toList 2 ∧
    ∃ files f l, filesOfText {} detourText = .ok files ∧ files["a.js"]? = some f ∧
      f.line? 1 = some l ∧ 0 ∈ l.counts ∧ l.coverage ≠ .full := by
  have hscripts : scriptsOf {} detourText = .ok [detour] := by decide +kernel
  have hlabels : ((occurrences [detour]).map Occurrence.label).Nodup := by decide +kernel
  have hexposed : Exposed detour.instructions.toList 2 := by decide +kernel
  have hlast : ∀ previous, (codeBefore [] detour 2 1).getLast? = some previous →
      ¬ previous.fallsThrough := by
    have hbefore : (codeBefore [] detour 2 1).getLast? = detour.instructions[0]? := by
      decide +kernel
    rw [hbefore]
    rintro previous ⟨⟩
    decide
  obtain ⟨files, hfiles, hall⟩ := shows_of_exposed hscripts hlabels
  obtain ⟨f, l, hf, hl, -, -, hshows⟩ := hall [] detour [] rfl 2 detour.instructions[2] rfl hexposed
  exact ⟨hscripts, hlabels, hexposed, files, f, l, hfiles, hf, hl, hshows hlast⟩

/-- The same with an instruction before the branch that falls through, and the branch on the other
line. -/
def masked : Script :=
  { filename := "a.js"
    startLine := 1
    instructions :=
      #[{ address := 0, sourceLine := 1, text := "pop", count := 5,
          reachable := true, fallsThrough := true, entryTarget := true },
        { address := 1, sourceLine := 2, text := "ifeq 3", count := 5, reachable := true },
        { address := 2, sourceLine := 2, text := "stop", count := 5,
          reachable := true, entryTarget := true },
        { address := 3, sourceLine := 1, text := "stop",
          reachable := true, entryTarget := true }] }

def maskedText : String :=
  "--- SCRIPT a.js:1 ---\n0:5/0/0 x 1 pop\n1:5/0/0 x 2 ifeq 3\n2:5/0/0 x 2 stop\n" ++
    "3:0/0/0 x 1 stop\n--- END SCRIPT ---"

/-- The line says that all of it ran. -/
def showsNone (l : Line) : Bool := 0 ∉ l.counts && l.coverage = .full

theorem showsNone_masked :
    scriptsOf {} maskedText = .ok [masked] ∧
    ((occurrences [masked]).map Occurrence.label).Nodup ∧
    Exposed masked.instructions.toList 3 ∧ masked.instructions[3].sourceLine = 1 ∧
    ∃ files f l, filesOfText {} maskedText = .ok files ∧ files["a.js"]? = some f ∧
      f.line? 1 = some l ∧ 0 ∉ l.counts ∧ l.coverage = .full := by
  have hscripts : scriptsOf {} maskedText = .ok [masked] := by decide +kernel
  have hnone : ((groupByFile "stop" [masked])["a.js"]?.bind (·.line? 1)).any showsNone = true := by
    decide +kernel
  obtain ⟨l, hline, hshows⟩ := (Option.any_eq_true _ _).1 hnone
  obtain ⟨f, hf, hl⟩ := Option.bind_eq_some_iff.1 hline
  rw [showsNone, Bool.and_eq_true, decide_eq_true_eq, decide_eq_true_eq] at hshows
  refine ⟨hscripts, by decide +kernel, by decide +kernel, rfl, ?_⟩
  refine ⟨_, f, l, ?_, hf, hl, hshows⟩
  rw [filesOfText, hscripts]
  rfl

end BytecodeCoverage
