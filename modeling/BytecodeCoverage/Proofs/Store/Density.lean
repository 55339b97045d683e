-- SUMMARY: A snapshot shows all lines of its file from one on, each in its place, and their tally.
import BytecodeCoverage.Proofs.Store.Progress
import BytecodeCoverage.Proofs.Store.Slots
import Mathlib.Order.Bounds.Basic

/-!
# Dense snapshots

The lines of a file come in ascending order when they are put into its snapshot, whatever the order
in which they were made. So each is put behind all that are there, with the gaps before it: the
lines that the snapshot has are, in order, the lines that the file shows. Therefore it does not
matter whether the lines of the snapshot are counted or those of the file.
-/

namespace BytecodeCoverage

namespace FileSnapshot

variable {room : Room} {f : File} {s s' : FileSnapshot}

/-- The lines of a snapshot that are no gaps. -/
def present (s : FileSnapshot) : List LineSnapshot := s.lines.toList.filterMap id

/-- What a snapshot of a file is like, told without how it is taken. -/
structure Represents (f : File) (s : FileSnapshot) : Prop where
  filename : s.filename = f.filename
  /-- At an index is the line of the number that is greater by one. -/
  lines : ∀ i : Nat, s.line? i = (f.line? (i + 1)).map fun l =>
    ⟨l.coverage, l.counts, l.startsFunction, l.endsFunction⟩
  /-- As many lines as the greatest number from one on, none if there is no such number. -/
  size : IsGreatest (insert 0 {number : Int | 1 ≤ number ∧ (f.line? number).isSome}) s.lines.size
  ends : s.lines.back? ≠ some none
  recounted : s.totals = s.recount
  tallied : s.totals =
    .ofClasses ((f.lines.toList.filter fun entry => 1 ≤ entry.1).map (·.2.coverage))
  /-- A file of which all lines are shown has the same tally. -/
  total : (∀ number, (f.line? number).isSome → 1 ≤ number) → s.totals = f.tally

-- ---------------------------------------------------------------------------
-- The lines that are present
-- ---------------------------------------------------------------------------

theorem recount_eq (s : FileSnapshot) : s.recount = .ofClasses (s.present.map (·.coverage)) := by
  rw [recount, present, Array.toList_filterMap, List.map_filterMap]
  rfl

/-- A line that is put behind all others leaves them as they are. -/
theorem present_setLine {i : Nat} (h : s.lines.size ≤ i) (line : LineSnapshot) :
    (s.setLine i line).present = s.present ++ [line] := by
  have hlines : (s.setLine i line).lines.toList =
      s.lines.toList ++ (List.replicate (i - s.lines.size) none ++ [some line]) := by
    have hgaps : i + 1 - s.lines.size = (i - s.lines.size) + 1 := by omega
    rw [setLine, Array.toList_setIfInBounds, Array.toList_append, Array.toList_replicate, hgaps,
      List.replicate_succ', List.set_append, if_neg (by simpa using h), List.set_append,
      if_neg (by simp)]
    simp
  rw [present, hlines, List.filterMap_append, List.filterMap_append,
    List.filterMap_replicate_of_none rfl, List.nil_append]
  rfl

/-- By induction on the lines that are to come: all of them are for slots behind those there are. -/
theorem present_foldlM_putEntry {entries : List (Int × Line)}
    (h : entries.foldlM (putEntry room) s = .ok s') (hascending : entries.Pairwise fun a b => a.1 < b.1)
    (hbehind : ∀ entry ∈ entries, s.lines.size < entry.1) :
    s'.present = s.present ++ entries.map fun entry => .ofLine entry.2 := by
  induction entries generalizing s with
  | nil =>
    cases h
    exact (List.append_nil _).symm
  | cons entry rest ih =>
    obtain ⟨hentry, hrest⟩ := List.pairwise_cons.1 hascending
    obtain ⟨next, hnext, h⟩ := bind_eq_ok_iff.1 ((List.foldlM_cons ..).symm.trans h)
    have hlt := hbehind entry (.head _)
    obtain rfl := putLine_ok hnext
    have hmore : ∀ other ∈ rest,
        ((s.setLine (entry.1 - 1).toNat (.ofLine entry.2)).lines.size : Int) < other.1 := by
      intro other hother
      have := hentry other hother
      rw [size_setLine]
      omega
    rw [ih h hrest hmore, present_setLine (by omega), List.append_assoc]
    rfl

theorem ascending_shownLines (f : File) : (shownLines f).Pairwise fun a b => a.1 < b.1 :=
  (Std.TreeMap.ordered_keys_toList.imp Int.compare_eq_lt.1).filter _

theorem present_ofFile (h : ofFile f room = .ok s) :
    s.present = (shownLines f).map fun entry => .ofLine entry.2 := by
  rw [ofFile_eq] at h
  obtain ⟨filled, hfilled, rfl⟩ := map_eq_ok_iff.1 h
  refine present_foldlM_putEntry hfilled (ascending_shownLines f) fun entry hentry => ?_
  exact Int.lt_of_lt_of_le Int.zero_lt_one (mem_shownLines.1 hentry).2

-- ---------------------------------------------------------------------------
-- The snapshot of a file
-- ---------------------------------------------------------------------------

theorem Tight.back? (h : s.Tight) : s.lines.back? ≠ some none := by
  intro hback
  rw [Array.back?_eq_getElem?] at hback
  obtain ⟨hsize, -⟩ := Array.getElem?_eq_some_iff.1 hback
  refine h (s.lines.size - 1) (by omega) ?_
  rw [line?, hback]
  rfl

theorem size_ofFile (h : ofFile f room = .ok s) :
    IsGreatest (insert 0 {number : Int | 1 ≤ number ∧ (f.line? number).isSome}) s.lines.size := by
  constructor
  · cases hsize : s.lines.size with
    | zero => exact .inl rfl
    | succ i =>
      have hlast := (taken_of_ofFile h).tight i hsize
      rw [line?_ofFile h, Ne, Option.map_eq_none_iff, ← Ne, Option.ne_none_iff_isSome] at hlast
      exact .inr ⟨by omega, hlast⟩
  · rintro number (rfl | ⟨hnumber, hline⟩)
    · exact Int.natCast_nonneg _
    · obtain ⟨l, hl⟩ := Option.isSome_iff_exists.1 hline
      have hslot : s.line? (number - 1).toNat = some (.ofLine l) := by
        rw [line?_ofFile h, show ((number - 1).toNat + 1 : Int) = number by omega, hl]
        rfl
      have := lt_size_of_line? hslot
      omega

theorem totals_ofFile (h : ofFile f room = .ok s) :
    s.totals = .ofClasses ((shownLines f).map (·.2.coverage)) := by
  rw [(taken_of_ofFile h).totals, recount_eq, present_ofFile h, List.map_map]
  rfl

theorem shownLines_of_shown (h : ∀ number, (f.line? number).isSome → 1 ≤ number) :
    shownLines f = f.lines.toList := by
  refine List.filter_eq_self.2 fun entry hentry => decide_eq_true (h entry.1 ?_)
  rw [File.line?, Std.TreeMap.mem_toList_iff_getElem?_eq_some.1 hentry]
  rfl

theorem represents_ofFile (h : ofFile f room = .ok s) : Represents f s where
  filename := (taken_of_ofFile h).filename
  lines := line?_ofFile h
  size := size_ofFile h
  ends := (taken_of_ofFile h).tight.back?
  recounted := (taken_of_ofFile h).totals
  tallied := totals_ofFile h
  total hshown := by
    rw [totals_ofFile h, shownLines_of_shown hshown, File.tally, File.lineList, List.map_map]
    rfl

theorem Represents.unique (h : Represents f s) (h' : Represents f s') : s = s' := by
  have hsize : s.lines.size = s'.lines.size := Int.ofNat_inj.1 (h.size.unique h'.size)
  refine eq_of_recounted h.recounted h'.recounted (h.filename.trans h'.filename.symm) ?_
  exact lines_eq_of_line? hsize fun i => (h.lines i).trans (h'.lines i).symm

/-- Whatever room there is, a file has a snapshot just if there is enough for all of its lines, and
that snapshot is the only one that represents the file. -/
theorem ofFile_iff_represents (f : File) (room : Room) :
    ((∃ s, ofFile f room = .ok s) ↔
      ∀ number l, f.line? number = some l → number ≤ room.lines) ∧
      ∀ s, ofFile f room = .ok s →
        Represents f s ∧ ∀ other, Represents f other → other = s := by
  refine ⟨exists_ofFile_iff, fun s hs => ?_⟩
  have hrepresents := represents_ofFile hs
  exact ⟨hrepresents, fun other hother => hother.unique hrepresents⟩

/-- A file that is made of its third line, then of its first, with a line before the first. -/
example :
    let made := [3, 0, 1].foldl (fun (f : File) number => f.modifyLine number id)
      { filename := "a.js", haltMnemonic := "stop" }
    let nothing : LineSnapshot := { coverage := .insignificant }
    ofFile made =
      .ok { filename := "a.js", lines := #[some nothing, none, some nothing] } := by
  decide +kernel

/-- A file with one line, below where any list of lines ends. -/
def bottomless : File :=
  File.modifyLine { filename := "a.js", haltMnemonic := "stop" } 10000000000000000000 id

/-- The line is in the file, and whatever room there is, there is no snapshot that has it. -/
theorem ofFile_bottomless :
    (bottomless.line? 10000000000000000000).isSome ∧
      ∀ room, ofFile bottomless room = .error .gapTooLong := by
  have hshown : shownLines bottomless =
      [(10000000000000000000, { number := 10000000000000000000, haltMnemonic := "stop" })] := by
    decide +kernel
  exact ⟨by decide +kernel, ofFile_of_far hshown (by decide)⟩

end FileSnapshot

end BytecodeCoverage
