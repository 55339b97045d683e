-- SUMMARY: The function marks of a stored line are those with which it was stored first.
import BytecodeCoverage.Proofs.Coverage.Registration
import BytecodeCoverage.Proofs.Engine.Totals
import BytecodeCoverage.Proofs.Store.Slots

/-!
# Function marks

A line that a dump shows for the first time is stored with the marks of the functions that start and
end on it. Whatever a later dump shows, of a stored line it revises the class and the counts and
leaves the marks alone. So a function that first shows when its line is known already, as a nested
one may, leaves no mark there, in this call or in any after it.
-/

namespace BytecodeCoverage

/-! ## Lines -/

namespace LineSnapshot

/-- Whether functions start and end on the line. -/
def functionMarks (l : LineSnapshot) : Bool × Bool := (l.startsFunction, l.endsFunction)

@[simp] theorem functionMarks_revise (kept line : LineSnapshot) :
    (kept.revise line).functionMarks = kept.functionMarks := rfl

theorem functionMarks_of_revised {kept : LineSnapshot} {shown now : Option LineSnapshot}
    (h : now = some kept ∨ now = revised (some kept) shown) :
    ∃ line, now = some line ∧ line.functionMarks = kept.functionMarks := by
  rcases h with rfl | rfl
  · exact ⟨kept, rfl, rfl⟩
  · cases shown with
    | none => exact ⟨kept, rfl, rfl⟩
    | some line => exact ⟨kept.revise line, rfl, functionMarks_revise kept line⟩

/-- A stored line takes the report of a line that a dump shows, and keeps its own marks. -/
theorem functionMarks_revised (kept : Option LineSnapshot) (line : LineSnapshot) :
    ∃ stored, revised kept (some line) = some stored ∧ stored.report = line.report ∧
      stored.functionMarks = (kept.getD line).functionMarks := by
  cases kept with
  | none => exact ⟨line, rfl, rfl, rfl⟩
  | some kept => exact ⟨kept.revise line, rfl, rfl, functionMarks_revise kept line⟩

end LineSnapshot

namespace Engine

variable {σ : Type} {g : Grammar} {behaviour : Behaviour σ} {text : String} {e e' : Engine σ}
  {file : String} {i : Nat} {kept : LineSnapshot}

/-! ## Calls -/

/-- No call changes the marks of a stored line, wherever observers stop it. -/
theorem functionMarks_perform (he : e.parsing = false) (hkept : e.store.line? file i = some kept)
    (call : Call σ) :
    ∃ now, (e.perform g call).store.line? file i = some now ∧
      now.functionMarks = kept.functionMarks := by
  cases call with
  | parse behaviour text =>
    obtain ⟨made, unmade, hmakes⟩ := exists_makes g behaviour text he
    have hmade : made <+: e.store.changes (shownBy g text) := ⟨unmade, hmakes.eq_append.symm⟩
    have hline := Store.line?_foldl_part (wellFormed_shownBy g text) hmade file i
    rw [hkept, ← hmakes.store] at hline
    exact LineSnapshot.functionMarks_of_revised hline
  | addObserver observer => exact ⟨kept, hkept, rfl⟩
  | removeObserver observer => exact ⟨kept, hkept, rfl⟩

/-- By induction on the calls. -/
theorem functionMarks_performAll (he : e.parsing = false) (hkept : e.store.line? file i = some kept)
    (calls : List (Call σ)) :
    ∃ now, (performAll g e calls).store.line? file i = some now ∧
      now.functionMarks = kept.functionMarks := by
  induction calls generalizing e kept with
  | nil => exact ⟨kept, hkept, rfl⟩
  | cons call rest ih =>
    obtain ⟨next, hnext, hmarks⟩ := functionMarks_perform (g := g) he hkept call
    obtain ⟨now, hnow, hlast⟩ := ih (parsing_perform he call) hnext
    exact ⟨now, hnow, hlast.trans hmarks⟩

/-- A parse that succeeds stores for each line of its dump what the line reports. The marks are
those of the dump if the line was not stored before, and else those that it was stored with. No
later call changes them. -/
theorem functionMarks_parse {result : List FileSnapshot}
    (h : e.parse g behaviour text = (e', .ok result)) :
    ∃ files, filesOfText g text = .ok files ∧
      ∀ file f i l, files[file]? = some f → f.line? (i + 1) = some l →
        ∃ stored, e'.store.line? file i = some stored ∧
          stored.report = (l.coverage, l.counts) ∧
          stored.functionMarks =
            ((e.store.line? file i).getD (.ofLine l)).functionMarks ∧
          ∀ calls, ∃ now, (performAll g e' calls).store.line? file i = some now ∧
            now.functionMarks = stored.functionMarks := by
  obtain ⟨he, dump, hdump, hfault, -, hstore, -⟩ := parse_ok h
  obtain ⟨scripts, hscripts, -⟩ := scriptsOf_of_dumpOf hdump
  have hfree : e'.parsing = false := by
    have hparsing : (e.parse g behaviour text).1.parsing = false := parsing_parse he
    rw [h] at hparsing
    exact hparsing
  refine ⟨groupByFile g.dialect.haltMnemonic scripts, ?_, ?_⟩
  · rw [filesOfText, hscripts]
    rfl
  · intro file f i l hf hl
    have hline := Store.line?_absorb (wellFormed_of_dumpOf hdump).nodup e.store file i
    rw [line?_snapshotOf hdump hfault hscripts hf, hl, ← hstore] at hline
    obtain ⟨stored, hstored, hreport, hmarks⟩ :=
      LineSnapshot.functionMarks_revised (e.store.line? file i) (.ofLine l)
    have hnow : e'.store.line? file i = some stored := hline.trans hstored
    exact ⟨stored, hnow, hreport, hmarks, functionMarks_performAll hfree hnow⟩

/-! ## A nested function -/

/-- A function on one line. -/
def nestedDump : String := "--- SCRIPT a.js:2 ---\n0:4/0/0 x 2 stop\n--- END SCRIPT"

/-- A function around it. -/
def outerDump : String :=
  "--- SCRIPT a.js:1 ---\n0:1/0/0 x 1 pop\n1:1/0/0 x 2 pop\n2:1/0/0 x 3 stop\n--- END SCRIPT"

/-- An engine that has parsed nothing. -/
def untouched : Engine Unit := { memory := () }

/-- An engine that has parsed the function around the nested one. -/
def outerKnown : Engine Unit := untouched.perform {} (.parse deaf outerDump)

/-- The line of a file of a text. -/
def lineOfText? (g : Grammar) (text file : String) (number : Int) : Option Line :=
  (filesOfText g text).toOption.bind fun files => files[file]?.bind (·.line? number)

/-- On a line that was not known, the function leaves its marks. -/
theorem functionMarks_first :
    (untouched.parse {} deaf nestedDump).2.isOk ∧
      ∃ l stored, lineOfText? {} nestedDump "a.js" 2 = some l ∧
        (untouched.parse {} deaf nestedDump).1.store.line? "a.js" 1 = some stored ∧
        l.startsFunction ∧ l.endsFunction ∧ stored.functionMarks = (true, true) := by
  have hok : (untouched.parse {} deaf nestedDump).2.isOk := by decide +kernel
  have hnew : untouched.store.line? "a.js" 1 = none := by decide +kernel
  have hmarked : (lineOfText? {} nestedDump "a.js" 2).any
      (fun l => l.startsFunction && l.endsFunction) := by decide +kernel
  refine ⟨hok, ?_⟩
  rcases hparse : untouched.parse {} deaf nestedDump with ⟨e', result⟩
  rw [hparse] at hok
  cases result with
  | error fault => cases hok
  | ok result =>
    obtain ⟨files, hfiles, hall⟩ := functionMarks_parse hparse
    obtain ⟨l, hl, hends⟩ := (Option.any_eq_true _ _).1 hmarked
    obtain ⟨hstart, hend⟩ := (Bool.and_eq_true _ _).mp hends
    have hline : files["a.js"]?.bind (·.line? 2) = some l := by
      rw [lineOfText?, hfiles] at hl
      exact hl
    obtain ⟨f, hf, hfl⟩ := Option.bind_eq_some_iff.1 hline
    obtain ⟨stored, hstored, -, hmarks, -⟩ := hall "a.js" f 1 l hf hfl
    rw [hnew] at hmarks
    refine ⟨l, stored, hl, hstored, hstart, hend, hmarks.trans ?_⟩
    exact Prod.ext hstart hend

/-- On a known line, the function leaves none, though its count is stored. -/
theorem functionMarks_missed :
    (outerKnown.parse {} deaf (outerDump ++ "\n" ++ nestedDump)).2.isOk ∧
      ((lineOfText? {} (outerDump ++ "\n" ++ nestedDump) "a.js" 2).map fun l =>
        (l.counts, l.startsFunction, l.endsFunction)) = some ([1, 4], true, true) ∧
      (outerKnown.parse {} deaf (outerDump ++ "\n" ++ nestedDump)).1.store.line? "a.js" 1 =
        some { coverage := .full, counts := [1, 4] } := by
  decide +kernel

end Engine

end BytecodeCoverage
