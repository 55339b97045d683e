-- SUMMARY: Stores of which every number can be written, and what can be told of them.
import BytecodeCoverage.Proofs.Coverage.Exposure
import BytecodeCoverage.Proofs.Session.Numbers
import BytecodeCoverage.Proofs.Store.Difference
import BytecodeCoverage.Proofs.Store.Slots
import BytecodeCoverage.Report.Table

/-!
# Legibility

A snapshot has no more lines than can be counted off, whatever room there is, so line numbers and
totals are small. What may be too long to be written are its counts, and they come from the dumps.
Summaries show no counts and can always be made. A dump of which the counts can be written leaves a
store legible, and of a legible store every notice can be described and every report be made.
-/

namespace BytecodeCoverage

/-! ## Small numbers -/

theorem Numeral.isWritable_of_le {n : Int} (hn : n.natAbs ≤ 4 * gapLimit) : isWritable n := by
  have hpow : 10 ^ 20 ≤ 10 ^ digitLimit := Nat.pow_le_pow_right (by decide) (by decide)
  rw [isWritable, decide_eq_true_eq, tooLong_eq_pow]
  unfold gapLimit at hn
  omega

namespace Binary64

/-- The quotient is finite if its exponent is not among the greatest. -/
theorem ofRatio_ne_infinity {negative sign : Bool} {num den : Nat} (h : exponentOf num den < 971) :
    ofRatio negative num den ≠ .infinity sign := by
  have hfinite : ∀ (m : Nat) (e : Int), e ≤ 971 →
      (if 971 < e then infinity negative else finite negative m e) ≠ .infinity sign := by
    intro m e he
    rw [if_neg (by omega)]
    nofun
  unfold ofRatio
  split
  · nofun
  · dsimp only
    split
    · exact hfinite _ _ (by omega)
    · exact hfinite _ _ (by omega)

end Binary64

/-- A small number is far from the greatest exponents. -/
theorem exists_toReal {n : Int} (hn : n.natAbs ≤ 4 * gapLimit) : ∃ x, toReal n = .ok x := by
  have hlog : n.natAbs.log2 < 66 := by
    by_cases hzero : n.natAbs = 0
    · rw [hzero]
      decide
    · refine (Nat.log2_lt hzero).2 (Nat.lt_of_le_of_lt hn ?_)
      decide
  have hone : Nat.log2 1 = 0 := by decide
  have hexponent : Binary64.exponentOf n.natAbs 1 < 971 := by
    unfold Binary64.exponentOf
    rw [hone]
    dsimp only
    split
    · omega
    · omega
  unfold toReal
  split
  · rename_i sign hinfinite
    exact absurd hinfinite (Binary64.ofRatio_ne_infinity hexponent)
  · exact ⟨_, rfl⟩

/-! ## Snapshots -/

theorem Tally.natAbs_le_of_mem_ofClasses {classes : List CoverageClass} {n : Int}
    (hn : n ∈ (ofClasses classes).toList) : n.natAbs ≤ classes.length := by
  have hcount : ∀ c : CoverageClass, (classes.count c : Int).natAbs ≤ classes.length := fun c => by
    rw [Int.natAbs_natCast]
    exact List.count_le_length
  simp only [toList, ofClasses, List.mem_cons, List.not_mem_nil, or_false] at hn
  rcases hn with rfl | rfl | rfl | rfl
  all_goals exact hcount _

namespace FileSnapshot

/-- The lines of the snapshot can be counted off, and its totals are theirs. -/
structure Sized (s : FileSnapshot) : Prop where
  size : s.lines.size ≤ gapLimit
  totals : s.totals = s.recount

/-- Every count of the snapshot can be written. -/
def CountsAreWritable (s : FileSnapshot) : Prop :=
  ∀ i line, s.line? i = some line → ∀ n ∈ line.counts, Numeral.isWritable n

/-- Every number that can be told of the snapshot can be written. -/
structure Legible (s : FileSnapshot) : Prop extends Sized s where
  counts : s.CountsAreWritable

variable {s new : FileSnapshot}

theorem Sized.totals_le (h : s.Sized) {n : Int} (hn : n ∈ s.totals.toList) :
    n.natAbs ≤ gapLimit := by
  rw [h.totals] at hn
  calc n.natAbs
      ≤ ((s.lines.filterMap fun line => line.map (·.coverage)).toList).length :=
        Tally.natAbs_le_of_mem_ofClasses hn
    _ ≤ s.lines.size := Array.size_filterMap_le
    _ ≤ gapLimit := h.size

theorem Sized.isWritable_totals (h : s.Sized) : ∀ n ∈ s.totals.toList, Numeral.isWritable n := by
  intro n hn
  have hle := h.totals_le hn
  exact Numeral.isWritable_of_le (by omega)

/-- What becomes of a line has the counts of the line that is shown, if there is one. -/
theorem mem_counts_revised {kept shown : Option LineSnapshot} {line : LineSnapshot} {n : Int}
    (h : LineSnapshot.revised kept shown = some line) (hn : n ∈ line.counts) :
    (∃ line', shown = some line' ∧ n ∈ line'.counts) ∨
      ∃ line', kept = some line' ∧ n ∈ line'.counts := by
  cases shown with
  | none =>
    rw [LineSnapshot.revised_none] at h
    exact .inr ⟨line, h, hn⟩
  | some line' =>
    have hreport := LineSnapshot.revised_some kept line'
    rw [h, Option.map_some, Option.some.injEq] at hreport
    have hcounts : line.counts = line'.counts := congrArg Prod.snd hreport
    exact .inl ⟨line', rfl, hcounts ▸ hn⟩

theorem Sized.merged {stored : Option FileSnapshot} (hstored : ∀ s, stored = some s → s.Sized)
    (hnew : new.Sized) (htight : new.Tight) : (Store.merged stored new).Sized := by
  refine ⟨?_, Store.totals_merged hnew.totals⟩
  rw [Store.length_merged htight]
  refine Nat.max_le.2 ⟨?_, hnew.size⟩
  cases stored with
  | none => exact Nat.zero_le _
  | some s => exact (hstored s rfl).size

theorem Legible.merged {stored : Option FileSnapshot}
    (hstored : ∀ s, stored = some s → s.Legible) (hnew : new.Legible) (htight : new.Tight) :
    (Store.merged stored new).Legible := by
  refine ⟨.merged (fun s hs => (hstored s hs).toSized) hnew.toSized htight, ?_⟩
  intro i line hline n hn
  rw [Store.line?_merged] at hline
  rcases mem_counts_revised hline hn with ⟨line', hshown, hn⟩ | ⟨line', hkept, hn⟩
  · exact hnew.counts i line' hshown n hn
  · obtain ⟨s, rfl, hs⟩ := Option.bind_eq_some_iff.1 hkept
    exact (hstored s rfl).counts i line' hs n hn

/-- The snapshot of a file is sized, since there is room for all of it. -/
theorem sized_of_ofFile {f : File} {room : Room} (h : ofFile f room = .ok s) : s.Sized := by
  have htaken := taken_of_ofFile h
  refine ⟨?_, htaken.totals⟩
  cases hsize : s.lines.size with
  | zero => exact Nat.zero_le _
  | succ k =>
    -- The last line of the snapshot is one of the file.
    have hlast := htaken.tight k hsize
    rw [line?_ofFile h] at hlast
    obtain ⟨l, hl⟩ := Option.ne_none_iff_exists'.1 (mt Option.map_eq_none_iff.2 hlast)
    have hroom := room_of_ofFile h hl
    have hlimit := room.lines_le
    omega

theorem legible_of_ofFile {f : File} {room : Room} (h : ofFile f room = .ok s)
    (hcounts : ∀ number l, f.line? number = some l → ∀ n ∈ l.counts, Numeral.isWritable n) :
    s.Legible := by
  refine ⟨sized_of_ofFile h, ?_⟩
  intro i line hline n hn
  rw [line?_ofFile h] at hline
  obtain ⟨l, hl, rfl⟩ := Option.map_eq_some_iff.1 hline
  exact hcounts _ l hl n hn

end FileSnapshot

/-! ## Stores -/

namespace Store

/-- All snapshots are sized. -/
def Sized (s : Store) : Prop := ∀ file stored, s.find? file = some stored → stored.Sized

/-- Every count of the store can be written. -/
def CountsAreWritable (s : Store) : Prop :=
  ∀ file stored, s.find? file = some stored → stored.CountsAreWritable

/-- Every number that can be told of the store can be written. -/
def Legible (s : Store) : Prop := ∀ file stored, s.find? file = some stored → stored.Legible

theorem find?_empty (file : String) : find? {} file = none := by
  rw [find?, Std.TreeMap.getElem?_emptyc]

theorem legible_empty : Legible {} := by
  intro file stored h
  rw [find?_empty] at h
  cases h

theorem Legible.sized {s : Store} (h : s.Legible) : s.Sized := fun file stored hstored =>
  (h file stored hstored).toSized

/-- What holds of all that is stored and of all that is shown, and of what they are merged to, holds
of all that is stored afterwards. -/
theorem forall_absorb {P : FileSnapshot → Prop} {s : Store} {dump : List FileSnapshot}
    (hdump : WellFormed dump) (hs : ∀ file stored, s.find? file = some stored → P stored)
    (hnew : ∀ new ∈ dump, P new)
    (hmerged : ∀ stored new, (∀ s, stored = some s → P s) → P new → new.Tight →
      P (merged stored new)) :
    ∀ file stored, (s.absorb dump).find? file = some stored → P stored := by
  intro file stored hstored
  rw [find?_absorb hdump.nodup] at hstored
  cases hshown : snapshotOf dump file with
  | none =>
    rw [hshown] at hstored
    exact hs file stored hstored
  | some new =>
    rw [hshown] at hstored
    cases hstored
    have hmem := (mem_of_snapshotOf hshown).1
    exact hmerged _ new (fun s hfound => hs file s hfound) (hnew new hmem) (hdump.tight new hmem)

theorem Sized.absorb {s : Store} {dump : List FileSnapshot} (h : s.Sized)
    (hdump : WellFormed dump) (hnew : ∀ new ∈ dump, new.Sized) : (s.absorb dump).Sized :=
  forall_absorb hdump h hnew fun _ _ hstored hnew htight => .merged hstored hnew htight

theorem Legible.absorb {s : Store} {dump : List FileSnapshot} (h : s.Legible)
    (hdump : WellFormed dump) (hnew : ∀ new ∈ dump, new.Legible) : (s.absorb dump).Legible :=
  forall_absorb hdump h hnew fun _ _ hstored hnew htight => .merged hstored hnew htight

theorem find?_of_mem_snapshots {s : Store} {stored : FileSnapshot} (h : stored ∈ s.snapshots) :
    ∃ file, s.find? file = some stored := by
  obtain ⟨⟨file, stored⟩, hmem, rfl⟩ := List.mem_map.1 h
  exact ⟨file, Std.TreeMap.mem_toList_iff_getElem?_eq_some.1 hmem⟩

theorem Sized.of_mem_snapshots {s : Store} (h : s.Sized) {stored : FileSnapshot}
    (hstored : stored ∈ s.snapshots) : stored.Sized := by
  obtain ⟨file, hfound⟩ := find?_of_mem_snapshots hstored
  exact h file stored hfound

end Store

/-! ## Dumps -/

theorem exists_ofFile_of_mem {room : Room} {files : List File} {s : FileSnapshot}
    (h : s ∈ (Dump.ofFiles room files).snapshots) :
    ∃ f ∈ files, FileSnapshot.ofFile f room = .ok s := by
  have hmem : Except.ok s ∈ (files.map (FileSnapshot.ofFile · room)).takeWhile (·.isOk) := by
    rw [← Dump.snapshots_ofFiles]
    exact List.mem_map_of_mem h
  exact List.mem_map.1 ((List.takeWhile_prefix _).subset hmem)

/-- The counts of a line that scripts make can be written if those of its code can. -/
theorem isWritable_counts_of_groupByFile {haltMnemonic name : String} {scripts : List Script}
    {f : File} {number : Int} {l : Line} (hsound : ∀ s ∈ scripts, s.IsSound)
    (hcounts : ∀ s ∈ scripts, ∀ ins ∈ s.instructions.toList, Numeral.isWritable ins.count)
    (hf : (groupByFile haltMnemonic scripts)[name]? = some f) (hl : f.line? number = some l) :
    ∀ n ∈ l.counts, Numeral.isWritable n := by
  have hcode := forall_code_of_groupByFile hcounts hf hl
  have hsound' : ∀ ins ∈ l.code, ins.Sound := forall_code_of_groupByFile hsound hf hl
  rw [counts_of_groupByFile hf hl]
  intro n hn
  by_cases hpos : 0 < n
  · obtain ⟨ins, hins, -, rfl⟩ := exists_of_mem_distinctCounts hsound' hn hpos
    exact hcode ins hins
  · have hlow : -1 ≤ n := bound_distinctCounts hsound' n hn
    have hlimit : 1 ≤ gapLimit := by decide
    exact Numeral.isWritable_of_le (by omega)

theorem sized_of_dumpOf {g : Grammar} {text : String} {dump : Dump} (h : dumpOf g text = .ok dump) :
    ∀ new ∈ dump.snapshots, new.Sized := by
  obtain ⟨scripts, -, rfl⟩ := scriptsOf_of_dumpOf h
  intro new hnew
  obtain ⟨f, -, hfile⟩ := exists_ofFile_of_mem hnew
  exact FileSnapshot.sized_of_ofFile hfile

theorem legible_of_dumpOf {g : Grammar} {text : String} {dump : Dump} (h : g.ConvertsText text)
    (hdump : dumpOf g text = .ok dump) : ∀ new ∈ dump.snapshots, new.Legible := by
  obtain ⟨scripts, hscripts, rfl⟩ := scriptsOf_of_dumpOf hdump
  intro new hnew
  obtain ⟨f, hf, hfile⟩ := exists_ofFile_of_mem hnew
  obtain ⟨⟨name, f⟩, hmem, rfl⟩ := List.mem_map.1 hf
  refine FileSnapshot.legible_of_ofFile hfile fun number l hl => ?_
  exact isWritable_counts_of_groupByFile (isSound_of_scriptsOf hscripts) (h.counts scripts hscripts)
    (Std.TreeMap.mem_toList_iff_getElem?_eq_some.1 hmem) hl

/-! ## Notices -/

namespace Notice

/-- Every number of the notice can be written. -/
def IsTellable (n : Notice) : Prop := ∀ m ∈ n.numbers, Numeral.isWritable m

variable {n : Notice}

theorem describe_of_isTellable (h : n.IsTellable) : n.describe = .ok n.text := by
  rw [describe, if_pos (List.all_eq_true.2 h)]

end Notice

theorem isTellable_of_lineDifference {file : String} {i : Nat} {old now : Option LineSnapshot}
    {a : Announcement} (h : lineDifference file i old now = some a)
    (hi : i < gapLimit)
    (hcounts : ∀ line, now = some line → ∀ n ∈ line.counts, Numeral.isWritable n) :
    a.notice.IsTellable := by
  unfold lineDifference at h
  split at h
  · cases h
    exact List.forall_mem_cons.2 ⟨Numeral.isWritable_of_le (by omega), hcounts _ rfl⟩
  · split at h
    · cases h
    · cases h
      exact List.forall_mem_cons.2 ⟨Numeral.isWritable_of_le (by omega), hcounts _ rfl⟩
  · cases h

theorem isTellable_of_mem_fileDifference {file : String} {old now : Option FileSnapshot}
    (hnow : ∀ s, now = some s → s.Legible) {a : Announcement}
    (h : a ∈ fileDifference file old now) : a.notice.IsTellable := by
  unfold fileDifference at h
  split at h
  · cases List.mem_singleton.1 h
    exact (hnow _ rfl).isWritable_totals
  · rename_i old now
    have hlegible := hnow now rfl
    rcases List.mem_append.1 h with hline | htotals
    · obtain ⟨i, hi, hdifference⟩ := List.mem_filterMap.1 hline
      have hlt : i < now.lines.size := List.mem_range.1 hi
      exact isTellable_of_lineDifference hdifference (Nat.lt_of_lt_of_le hlt hlegible.size)
        (hlegible.counts i)
    · split at htotals
      · cases htotals
      · cases List.mem_singleton.1 htotals
        exact hlegible.isWritable_totals
  · cases h

/-- What sets a legible store apart from another can be told. -/
theorem Store.Legible.isTellable_of_mem_difference {before after : Store} (hafter : after.Legible)
    {files : List String} {a : Announcement} (h : a ∈ before.difference after files) :
    a.notice.IsTellable := by
  obtain ⟨file, -, ha⟩ := List.mem_flatMap.1 h
  exact isTellable_of_mem_fileDifference (hafter file) ha

/-! ## Reports -/

theorem exists_mapM {α β : Type} {f : α → Except Fault β} {as : List α}
    (h : ∀ a ∈ as, ∃ b, f a = .ok b) : ∃ bs, as.mapM f = .ok bs := by
  cases hresult : as.mapM f with
  | ok bs => exact ⟨bs, rfl⟩
  | error e =>
    obtain ⟨a, ha, he⟩ := Script.mapM_eq_error hresult
    obtain ⟨b, hb⟩ := h a ha
    rw [hb] at he
    cases he

theorem exists_mapM_numberText {ns : List Int} (h : ∀ n ∈ ns, Numeral.isWritable n) :
    ∃ texts, ns.mapM numberText = .ok texts :=
  exists_mapM fun n hn => ⟨toString n, if_pos (h n hn)⟩

namespace FileSnapshot

variable {s : FileSnapshot}

theorem line?_of_mem_zipIdx {line : LineSnapshot} {i : Nat}
    (h : (some line, i) ∈ s.lines.toList.zipIdx) : s.line? i = some line := by
  have hat : s.lines[i]? = some (some line) := by
    rw [← Array.getElem?_toList]
    exact List.mem_zipIdx_iff_getElem?.1 h
  rw [line?, hat, Option.join_some]

theorem Legible.exists_lineTable (h : s.Legible) : ∃ text, lineTable s = .ok text := by
  let shown := s.lines.toList.zipIdx.filterMap fun entry => entry.1.map (·, entry.2 + 1)
  have hrow : ∀ entry ∈ shown, ∃ row, entry.1.tableRow entry.2 = .ok row := by
    intro entry hentry
    obtain ⟨⟨line, i⟩, hline, hmap⟩ := List.mem_filterMap.1 hentry
    obtain ⟨line, rfl, rfl⟩ := Option.map_eq_some_iff.1 hmap
    obtain ⟨texts, htexts⟩ := exists_mapM_numberText (h.counts i line (line?_of_mem_zipIdx hline))
    exact ⟨_, by rw [LineSnapshot.tableRow, htexts]; rfl⟩
  obtain ⟨rows, hrows⟩ := exists_mapM hrow
  have htable : lineTable s =
      (shown.mapM fun entry => entry.1.tableRow entry.2) >>= fun rows =>
        pure (Text.joinWith "\n" rows) := rfl
  exact ⟨_, by rw [htable, hrows]; rfl⟩

theorem Sized.exists_percent (h : s.Sized) : ∃ x, s.totals.percent = .ok x := by
  have hfull : s.totals.full.natAbs ≤ gapLimit := h.totals_le (.head _)
  have hmixed : s.totals.mixed.natAbs ≤ gapLimit := h.totals_le (.tail _ (.head _))
  have hmissed : s.totals.missed.natAbs ≤ gapLimit := h.totals_le (.tail _ (.tail _ (.head _)))
  obtain ⟨covered, hcovered⟩ := exists_toReal (n := s.totals.full) (by omega)
  obtain ⟨executable, hexecutable⟩ := exists_toReal (n := s.totals.executable) (by
    unfold Tally.executable
    omega)
  unfold Tally.percent
  split
  · exact ⟨_, rfl⟩
  · rw [hcovered, hexecutable]
    exact ⟨_, rfl⟩

theorem Sized.exists_summaryCells (h : s.Sized) : ∃ cells, s.summaryCells = .ok cells := by
  obtain ⟨numbers, hnumbers⟩ := exists_mapM_numberText h.isWritable_totals
  obtain ⟨percent, hpercent⟩ := h.exists_percent
  exact ⟨_, by rw [summaryCells, hnumbers, hpercent]; rfl⟩

end FileSnapshot

theorem Store.Sized.exists_summaryTable {s : Store} (h : s.Sized) :
    ∃ text, summaryTable s.snapshots = .ok text := by
  obtain ⟨rows, hrows⟩ := exists_mapM fun stored hstored =>
    (h.of_mem_snapshots hstored).exists_summaryCells
  exact ⟨_, by rw [summaryTable, hrows]; rfl⟩

end BytecodeCoverage
