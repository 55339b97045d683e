-- SUMMARY: A snapshot has each line of its file in the slot of its number, and gaps elsewhere.
import BytecodeCoverage.Proofs.Script.Faults
import BytecodeCoverage.Proofs.Store.Absorption
import BytecodeCoverage.Proofs.Store.Dump
import Mathlib.Data.List.Nodup

/-!
# Slots

The lines of a file are put into its snapshot one by one, in ascending order. Each has a slot of its
own, told by its number, so none is overwritten. Whatever room there is, a file has a snapshot if
there is enough for all of its lines, and where a dump shows all files, it has a snapshot for each
of them.
-/

namespace BytecodeCoverage

namespace FileSnapshot

/-- Put the line of an entry into the slot of its number. -/
def putEntry (room : Room) (s : FileSnapshot) (entry : Int × Line) : Except Fault FileSnapshot :=
  s.putLine (entry.1 - 1).toNat (.ofLine entry.2) room

/-- The lines that a snapshot shows, with their numbers. -/
def shownLines (f : File) : List (Int × Line) :=
  f.lines.toList.filter fun entry => isShown entry.1

theorem ofFile_eq (f : File) (room : Room) :
    ofFile f room =
      ((shownLines f).foldlM (putEntry room) { filename := f.filename }).map (·.retotal) := by
  change (shownLines f).foldlM (putEntry room) { filename := f.filename } >>=
    (fun filled => .ok filled.retotal) = _
  cases (shownLines f).foldlM (putEntry room) { filename := f.filename } with
  | error fault => rfl
  | ok filled => rfl

section Entries

variable {room : Room} {entries : List (Int × Line)} {s s' : FileSnapshot}

/-- A slot that no entry is for stays as it is. -/
theorem line?_foldlM_putEntry_of_ne (h : entries.foldlM (putEntry room) s = .ok s') {i : Nat}
    (hi : ∀ entry ∈ entries, (entry.1 - 1).toNat ≠ i) : s'.line? i = s.line? i := by
  induction entries generalizing s with
  | nil =>
    cases h
    rfl
  | cons entry rest ih =>
    obtain ⟨hentry, hrest⟩ := List.forall_mem_cons.1 hi
    obtain ⟨next, hnext, h⟩ := bind_eq_ok_iff.1 ((List.foldlM_cons ..).symm.trans h)
    rw [ih h hrest, putLine_ok hnext, line?_setLine, if_neg hentry]

theorem line?_foldlM_putEntry (h : entries.foldlM (putEntry room) s = .ok s')
    (hslots : entries.Pairwise fun a b => (a.1 - 1).toNat ≠ (b.1 - 1).toNat)
    {entry : Int × Line} (hentry : entry ∈ entries) :
    s'.line? (entry.1 - 1).toNat = some (.ofLine entry.2) := by
  induction entries generalizing s with
  | nil => cases hentry
  | cons first rest ih =>
    obtain ⟨hfirst, hslots⟩ := List.pairwise_cons.1 hslots
    obtain ⟨next, hnext, hrest⟩ := bind_eq_ok_iff.1 ((List.foldlM_cons ..).symm.trans h)
    rcases List.mem_cons.1 hentry with rfl | hentry
    · rw [line?_foldlM_putEntry_of_ne hrest fun other hother => (hfirst other hother).symm,
        putLine_ok hnext, line?_setLine, if_pos rfl]
    · exact ih hrest hslots hentry

theorem foldlM_putEntry_of_room (hroom : ∀ entry ∈ entries, 1 ≤ entry.1 ∧ entry.1 ≤ room.lines)
    (s : FileSnapshot) : ∃ s', entries.foldlM (putEntry room) s = .ok s' := by
  induction entries generalizing s with
  | nil => exact ⟨s, rfl⟩
  | cons entry rest ih =>
    obtain ⟨hentry, hrest⟩ := List.forall_mem_cons.1 hroom
    have hslot : (entry.1 - 1).toNat < room.lines := by omega
    obtain ⟨s', hs'⟩ := ih hrest (s.setLine (entry.1 - 1).toNat (.ofLine entry.2))
    refine ⟨s', ?_⟩
    rw [List.foldlM_cons]
    exact bind_eq_ok_iff.2 ⟨_, putLine_eq_ok _ hslot, hs'⟩

theorem room_of_foldlM_putEntry (h : entries.foldlM (putEntry room) s = .ok s') :
    ∀ entry ∈ entries, entry.1 ≤ room.lines := by
  induction entries generalizing s with
  | nil => nofun
  | cons entry rest ih =>
    obtain ⟨next, hnext, hrest⟩ := bind_eq_ok_iff.1 ((List.foldlM_cons ..).symm.trans h)
    refine List.forall_mem_cons.2 ⟨?_, ih hrest⟩
    unfold putEntry putLine at hnext
    split at hnext
    · cases hnext
    · split at hnext
      · cases hnext
      · omega

end Entries

variable {room : Room} {f : File} {s : FileSnapshot}

theorem mem_shownLines {number : Int} {l : Line} :
    (number, l) ∈ shownLines f ↔ f.line? number = some l ∧ 1 ≤ number := by
  rw [shownLines, List.mem_filter, Std.TreeMap.mem_toList_iff_getElem?_eq_some, isShown,
    decide_eq_true_eq]
  rfl

theorem pairwise_shownLines (f : File) :
    (shownLines f).Pairwise fun a b => (a.1 - 1).toNat ≠ (b.1 - 1).toNat := by
  refine List.pairwise_filter.2 (Std.TreeMap.distinct_keys_toList.imp ?_)
  intro a b hne ha hb hslot
  simp only [isShown, decide_eq_true_eq] at ha hb
  refine hne (Int.compare_eq_eq.2 ?_)
  omega

/-- In the slot of a number is the line of that number. -/
theorem line?_ofFile (h : ofFile f room = .ok s) (i : Nat) :
    s.line? i = (f.line? (i + 1)).map LineSnapshot.ofLine := by
  rw [ofFile_eq] at h
  obtain ⟨filled, hfilled, rfl⟩ := map_eq_ok_iff.1 h
  rw [line?_retotal]
  cases hl : f.line? (i + 1) with
  | some l =>
    have hmem : ((i + 1 : Int), l) ∈ shownLines f := mem_shownLines.2 ⟨hl, by omega⟩
    have hslot := line?_foldlM_putEntry hfilled (pairwise_shownLines f) hmem
    rw [show ((i + 1 : Int) - 1).toNat = i by omega] at hslot
    exact hslot
  | none =>
    rw [line?_foldlM_putEntry_of_ne hfilled]
    · rfl
    · rintro ⟨number, l⟩ hentry hslot
      obtain ⟨hnumber, hshown⟩ := mem_shownLines.1 hentry
      have heq : number = i + 1 := by
        simp only at hslot
        omega
      rw [← heq, hnumber] at hl
      cases hl

theorem ofFile_of_room (h : ∀ number l, f.line? number = some l → number ≤ room.lines) :
    ∃ s, ofFile f room = .ok s := by
  have hentries : ∀ entry ∈ shownLines f, 1 ≤ entry.1 ∧ entry.1 ≤ room.lines := by
    intro entry hentry
    obtain ⟨hline, hshown⟩ := mem_shownLines.1 hentry
    exact ⟨hshown, h entry.1 entry.2 hline⟩
  obtain ⟨filled, hfilled⟩ := foldlM_putEntry_of_room hentries { filename := f.filename }
  refine ⟨filled.retotal, ?_⟩
  rw [ofFile_eq]
  exact map_eq_ok_iff.2 ⟨filled, hfilled, rfl⟩

theorem room_of_ofFile (h : ofFile f room = .ok s) {number : Int} {l : Line}
    (hl : f.line? number = some l) : number ≤ room.lines := by
  rw [ofFile_eq] at h
  obtain ⟨filled, hfilled, -⟩ := map_eq_ok_iff.1 h
  by_cases hshown : 1 ≤ number
  · exact room_of_foldlM_putEntry hfilled (number, l) (mem_shownLines.2 ⟨hl, hshown⟩)
  · omega

/-- A file has a snapshot just if there is room for all of its lines. -/
theorem exists_ofFile_iff :
    (∃ s, ofFile f room = .ok s) ↔ ∀ number l, f.line? number = some l → number ≤ room.lines :=
  ⟨fun ⟨_, h⟩ _ _ hl => room_of_ofFile h hl, ofFile_of_room⟩

/-- Whatever room there is, a file has no snapshot if its first line is beyond all that can be
counted off. -/
theorem ofFile_of_far {entry : Int × Line} {rest : List (Int × Line)}
    (h : shownLines f = entry :: rest) (hfar : gapLimit < entry.1) (room : Room) :
    ofFile f room = .error .gapTooLong := by
  have hgap : gapLimit < (entry.1 - 1).toNat + 1 - (#[] : Array (Option LineSnapshot)).size := by
    rw [Array.size_empty]
    omega
  have hput : putEntry room { filename := f.filename } entry = .error .gapTooLong := if_pos hgap
  rw [ofFile_eq, h, List.foldlM_cons, hput]
  rfl

end FileSnapshot

/-! ## Dumps that show all files -/

theorem Store.snapshotOf_of_mem {dump : List FileSnapshot} (hnodup : (dump.map (·.filename)).Nodup)
    {s : FileSnapshot} (hs : s ∈ dump) : snapshotOf dump s.filename = some s := by
  cases hfound : snapshotOf dump s.filename with
  | none => exact absurd (List.mem_map_of_mem hs) (snapshotOf_eq_none_iff.1 hfound)
  | some found =>
    obtain ⟨hmem, hname⟩ := mem_of_snapshotOf hfound
    rw [List.inj_on_of_nodup_map hnodup hmem hs hname]

namespace Dump

variable {room : Room} {files : List File}

theorem exists_snapshot (h : (ofFiles room files).fault = none) {f : File} (hf : f ∈ files) :
    ∃ s ∈ (ofFiles room files).snapshots, FileSnapshot.ofFile f room = .ok s := by
  induction files with
  | nil => cases hf
  | cons first rest ih =>
    unfold ofFiles at h ⊢
    cases hfirst : FileSnapshot.ofFile first room with
    | error fault =>
      rw [hfirst] at h
      cases h
    | ok snapshot =>
      rw [hfirst] at h
      rcases List.mem_cons.1 hf with rfl | hf
      · exact ⟨snapshot, .head _, hfirst⟩
      · obtain ⟨s, hs, hfile⟩ := ih h hf
        exact ⟨s, .tail _ hs, hfile⟩

theorem fault_eq_none (h : ∀ f ∈ files, ∃ s, FileSnapshot.ofFile f room = .ok s) :
    (ofFiles room files).fault = none := by
  induction files with
  | nil => rfl
  | cons first rest ih =>
    obtain ⟨⟨s, hs⟩, hrest⟩ := List.forall_mem_cons.1 h
    rw [ofFiles, hs]
    exact ih hrest

end Dump

/-- Where a dump shows all files, the lines that it shows of a file are those that the file has. -/
theorem line?_snapshotOf {g : Grammar} {text : String} {dump : Dump} {scripts : List Script}
    (hdump : dumpOf g text = .ok dump) (hfault : dump.fault = none)
    (hscripts : scriptsOf g text = .ok scripts) {file : String} {f : File}
    (hf : (groupByFile g.dialect.haltMnemonic scripts)[file]? = some f) (i : Nat) :
    (Store.snapshotOf dump.snapshots file).bind (·.line? i) =
      (f.line? (i + 1)).map LineSnapshot.ofLine := by
  have hnodup := (wellFormed_of_dumpOf hdump).nodup
  obtain ⟨scripts', hscripts', rfl⟩ := scriptsOf_of_dumpOf hdump
  obtain rfl : scripts = scripts' := Except.ok.inj (hscripts.symm.trans hscripts')
  have hmem : f ∈ filesOf g.dialect.haltMnemonic scripts :=
    List.mem_map.2 ⟨(file, f), Std.TreeMap.mem_toList_iff_getElem?_eq_some.2 hf, rfl⟩
  obtain ⟨s, hs, hfile⟩ := Dump.exists_snapshot hfault hmem
  have hname : s.filename = file :=
    (FileSnapshot.taken_of_ofFile hfile).filename.trans (filename_of_groupByFile hf)
  rw [← hname, Store.snapshotOf_of_mem hnodup hs]
  exact FileSnapshot.line?_ofFile hfile i

end BytecodeCoverage
