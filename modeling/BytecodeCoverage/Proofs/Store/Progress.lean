-- SUMMARY: What is stored when only the first of the changes of a dump have been made.
import BytecodeCoverage.Event
import BytecodeCoverage.Proofs.Store.Dump
import BytecodeCoverage.Proofs.Store.Absorption

/-!
# Progress of a dump

The changes of a dump go file by file, and in a file line by line. If they end early, some files
are done, at most one is in the middle of its lines, and the others are as they were. What is
missing is made good by the same dump: absorbed once more, it does to a line what it would have
done anyway.
-/

namespace BytecodeCoverage

open LineSnapshot (revised)

/-! ## The order of the changes -/

/-- The first change is of an earlier file than the second, or of a line of the same file. -/
def Change.Precedes (a b : Change) : Prop :=
  a.event.file < b.event.file ∨ a.event.file = b.event.file ∧ a.event.kind = .lineUpdate

@[simp] theorem Change.file_event_changeFile (file : String) (change : FileChange) :
    (Change.changeFile file change).event.file = file := by
  cases change <;> rfl

theorem FileSnapshot.kind_of_mem_lineChanges {stored new : FileSnapshot} {change : FileChange}
    (h : change ∈ stored.lineChanges new) (file : String) :
    (Change.changeFile file change).event.kind = .lineUpdate := by
  rw [lineChanges_eq] at h
  obtain ⟨i, -, hi⟩ := List.mem_filterMap.1 h
  obtain ⟨line, -, hchange⟩ := Option.bind_eq_some_iff.1 hi
  unfold lineChange? at hchange
  split at hchange
  · cases hchange
    rfl
  · split at hchange
    · cases hchange
    · cases hchange
      rfl

namespace Store

variable {s : Store} {dump : List FileSnapshot} {new : FileSnapshot}

theorem file_of_mem_fileChanges {change : Change} (h : change ∈ s.fileChanges new) :
    change.event.file = new.filename := by
  unfold fileChanges at h
  split at h
  · rw [List.mem_singleton.1 h]
    rfl
  · obtain ⟨fileChange, -, rfl⟩ := List.mem_map.1 h
    exact Change.file_event_changeFile _ _

theorem pairwise_fileChanges (s : Store) (new : FileSnapshot) :
    (s.fileChanges new).Pairwise Change.Precedes := by
  unfold fileChanges
  split
  · exact List.pairwise_singleton _ _
  · rename_i stored _
    -- Whatever comes after a change of a line, it is of the same file.
    have hline : ∀ a ∈ stored.lineChanges new, ∀ b : FileChange,
        (Change.changeFile new.filename a).Precedes (.changeFile new.filename b) := by
      intro a ha b
      refine .inr ⟨?_, FileSnapshot.kind_of_mem_lineChanges ha _⟩
      simp
    rw [FileSnapshot.changes, List.pairwise_map, List.pairwise_append]
    refine ⟨?_, ?_, ?_⟩
    · exact List.pairwise_of_forall_mem_list fun a ha b _ => hline a ha b
    · cases FileSnapshot.totalsChange? _ with
      | none => exact List.Pairwise.nil
      | some change => exact List.pairwise_singleton _ _
    · exact fun a ha b _ => hline a ha b

/-- The changes of a dump are in the order of its files, and the last of a file is the one that
is not of a line. -/
theorem pairwise_changes (hnames : (dump.map (·.filename)).Pairwise (· < ·)) (s : Store) :
    (s.changes dump).Pairwise Change.Precedes := by
  rw [changes, List.pairwise_flatMap]
  refine ⟨fun new _ => s.pairwise_fileChanges new, ?_⟩
  refine (List.pairwise_map.1 hnames).imp ?_
  intro first second hlt a ha b hb
  rw [← file_of_mem_fileChanges ha, ← file_of_mem_fileChanges hb] at hlt
  exact .inl hlt

/-! ## One file at a time -/

/-- Some changes, of which only those of one file are left. -/
def changesOf (file : String) (changes : List Change) : List Change :=
  changes.filter (·.event.file = file)

/-- What a change makes of what is stored of its file. -/
def applyTo (stored : Option FileSnapshot) : Change → Option FileSnapshot
  | .addFile snapshot => some snapshot
  | .changeFile _ change => stored.map (·.apply change)

theorem find?_apply (s : Store) (change : Change) (file : String) :
    (s.apply change).find? file =
      if change.event.file = file then applyTo (s.find? file) change else s.find? file := by
  cases change with
  | addFile snapshot => exact find?_apply_addFile s snapshot file
  | changeFile name change =>
    rw [find?_apply_changeFile, Change.file_event_changeFile]
    split
    · rename_i hname
      rw [hname]
      rfl
    · rfl

/-- What becomes of a file depends on the changes of this file alone. -/
theorem find?_foldl_apply (changes : List Change) (s : Store) (file : String) :
    (changes.foldl apply s).find? file = (changesOf file changes).foldl applyTo (s.find? file) := by
  induction changes generalizing s with
  | nil => rfl
  | cons change rest ih =>
    rw [List.foldl_cons, ih, find?_apply, changesOf, changesOf, List.filter_cons]
    by_cases hfile : change.event.file = file
    · simp [hfile]
    · simp [hfile]

theorem foldl_applyTo_changeFile (name : String) (changes : List FileChange)
    (stored : FileSnapshot) :
    (changes.map (.changeFile name)).foldl applyTo (some stored) =
      some (changes.foldl FileSnapshot.apply stored) := by
  induction changes generalizing stored with
  | nil => rfl
  | cons change rest ih => exact ih _

/-- The changes of one file are those that its snapshot in the dump makes. -/
theorem changesOf_changes (hnodup : (dump.map (·.filename)).Nodup) (s : Store) (file : String) :
    changesOf file (s.changes dump) =
      match snapshotOf dump file with
      | none => []
      | some new => s.fileChanges new := by
  induction dump with
  | nil => rfl
  | cons first rest ih =>
    obtain ⟨hfirst, hnodup⟩ := List.nodup_cons.1 hnodup
    have hrest := ih hnodup
    rw [changes, List.flatMap_cons, changesOf, List.filter_append]
    change _ ++ changesOf file (s.changes rest) = _
    by_cases hfile : first.filename = file
    · subst hfile
      have hall : (s.fileChanges first).filter (·.event.file = first.filename) =
          s.fileChanges first :=
        List.filter_eq_self.2 fun change hchange =>
          decide_eq_true (file_of_mem_fileChanges hchange)
      rw [hrest, snapshotOf_eq_none_iff.2 hfirst, hall, snapshotOf,
        List.find?_cons_of_pos (by simp)]
      exact List.append_nil _
    · have hnone : (s.fileChanges first).filter (·.event.file = file) = [] := by
        refine List.filter_eq_nil_iff.2 fun change hchange => ?_
        simpa [file_of_mem_fileChanges hchange] using hfile
      rw [hrest, hnone, snapshotOf, snapshotOf, List.find?_cons_of_neg (by simpa using hfile)]
      rfl

/-! ## Files in three states -/

section Stopped

variable {made unmade : List Change} {file : String}

/-- A file of which no change has been made is as it was. -/
theorem find?_of_none_made (h : changesOf file made = []) :
    (made.foldl apply s).find? file = s.find? file := by
  rw [find?_foldl_apply, h]
  rfl

/-- A file of which no change is left is as it will be. -/
theorem find?_of_none_unmade (hchanges : s.changes dump = made ++ unmade)
    (h : changesOf file unmade = []) :
    (made.foldl apply s).find? file = (s.absorb dump).find? file := by
  have hall : changesOf file (s.changes dump) = changesOf file made := by
    rw [hchanges, changesOf, List.filter_append]
    exact (congrArg (changesOf file made ++ ·) h).trans (List.append_nil _)
  rw [absorb, find?_foldl_apply, find?_foldl_apply, hall]

/-- The last change that was made is of a line of the file, if the file is in neither state. -/
theorem line_of_underway {change : Change}
    (hnames : (dump.map (·.filename)).Pairwise (· < ·))
    (hchanges : s.changes dump = made ++ [change] ++ unmade)
    (hmade : changesOf file (made ++ [change]) ≠ []) (hunmade : changesOf file unmade ≠ []) :
    change.event.file = file ∧ change.event.kind = .lineUpdate := by
  have horder := pairwise_changes hnames s
  rw [hchanges, List.pairwise_append, List.pairwise_append] at horder
  obtain ⟨⟨-, -, hbefore⟩, -, hafter⟩ := horder
  obtain ⟨first, hfirst⟩ := List.exists_mem_of_ne_nil _ hmade
  obtain ⟨later, hlater⟩ := List.exists_mem_of_ne_nil _ hunmade
  obtain ⟨hfirst, hfile⟩ := List.mem_filter.1 hfirst
  obtain ⟨hlater, hfile'⟩ := List.mem_filter.1 hlater
  replace hfile : first.event.file = file := of_decide_eq_true hfile
  replace hfile' : later.event.file = file := of_decide_eq_true hfile'
  have hnot : ¬ change.event.file < file := by
    rcases List.mem_append.1 hfirst with hearlier | hlast
    · rcases hbefore first hearlier change (List.mem_singleton_self _) with hlt | ⟨heq, -⟩
      · rw [hfile] at hlt
        exact fun hgt => String.lt_irrefl file (String.lt_trans hlt hgt)
      · rw [← heq, hfile]
        exact String.lt_irrefl file
    · rw [← List.mem_singleton.1 hlast, hfile]
      exact String.lt_irrefl file
  have hmem : change ∈ made ++ [change] := by simp
  rcases hafter change hmem later hlater with hlt | ⟨heq, hkind⟩
  · exact absurd (hfile' ▸ hlt) hnot
  · exact ⟨heq.trans hfile', hkind⟩

/-- All changes of a file have been made once one of a later file is, or the one of its own that
is not of a line. -/
theorem none_unmade_of_past {change : Change} (hnames : (dump.map (·.filename)).Pairwise (· < ·))
    (hchanges : s.changes dump = made ++ [change] ++ unmade)
    (hpast : file < change.event.file ∨
      file = change.event.file ∧ change.event.kind ≠ .lineUpdate) :
    changesOf file unmade = [] := by
  have horder := pairwise_changes hnames s
  rw [hchanges, List.pairwise_append] at horder
  obtain ⟨-, -, hafter⟩ := horder
  refine List.filter_eq_nil_iff.2 fun later hlater hfile => ?_
  replace hfile : later.event.file = file := of_decide_eq_true hfile
  have hmem : change ∈ made ++ [change] := by simp
  rcases hafter change hmem later hlater with hlt | ⟨heq, hkind⟩
  · rw [hfile] at hlt
    rcases hpast with hpast | ⟨hpast, -⟩
    · exact String.lt_irrefl file (String.lt_trans hpast hlt)
    · rw [← hpast] at hlt
      exact String.lt_irrefl file hlt
  · rcases hpast with hpast | ⟨-, hpast⟩
    · rw [heq, hfile] at hpast
      exact String.lt_irrefl file hpast
    · exact hpast hkind

end Stopped

end Store

/-! ## Files in the middle of their changes -/

namespace FileSnapshot

variable {stored new now : FileSnapshot}

/-- Some lines are as they were stored, and the others as a dump revises them. -/
structure Underway (stored new now : FileSnapshot) : Prop where
  filename : now.filename = stored.filename
  lines : ∀ i, now.line? i = stored.line? i ∨
    now.line? i = revised (stored.line? i) (new.line? i)
  size_ge : stored.lines.size ≤ now.lines.size
  size_le : now.lines.size ≤ max stored.lines.size new.lines.size

theorem underway_of_lineChanges {part : List FileChange}
    (h : part <+: stored.lineChanges new) : Underway stored new (part.foldl apply stored) := by
  rw [lineChanges_eq] at h
  obtain ⟨indices, hindices, rfl⟩ := List.prefix_filterMap_iff.1 h
  have hnodup := List.nodup_range.sublist hindices.sublist
  obtain ⟨hge, hle⟩ := @size_foldl_changeAt stored new _ indices
    (fun i hi => List.mem_range.1 (hindices.subset hi)) stored
  refine ⟨filename_foldl_apply _ _, ?_, hge, hle⟩
  intro i
  rw [line?_foldl_changeAt indices hnodup stored fun _ _ => rfl]
  split
  · exact .inr rfl
  · exact .inl rfl

theorem underway_of_changes {part : List FileChange} (h : part <+: stored.changes new) :
    Underway stored new (part.foldl apply stored) := by
  have hall := underway_of_lineChanges (stored.lineChanges new).prefix_rfl
  simp only [changes] at h
  cases htotals : ((stored.lineChanges new).foldl apply stored).totalsChange? with
  | none =>
    rw [htotals, Option.toList_none, List.append_nil] at h
    exact underway_of_lineChanges h
  | some change =>
    rw [htotals, Option.toList_some] at h
    rcases List.prefix_concat_iff.1 h with rfl | h
    · -- The totals are no line.
      have hmerge : stored.merge new = _ := stored.merge_eq new
      rw [merge, changes, htotals, Option.toList_some] at hmerge
      rw [hmerge]
      exact ⟨hall.filename, hall.lines, hall.size_ge, hall.size_le⟩
    · exact underway_of_lineChanges h

theorem lines_eq_of_line? {a b : FileSnapshot} (hsize : a.lines.size = b.lines.size)
    (h : ∀ i, a.line? i = b.line? i) : a.lines = b.lines := by
  refine Array.ext hsize fun i hi hi' => ?_
  simpa [line?, Array.getElem?_eq_getElem hi, Array.getElem?_eq_getElem hi'] using h i

/-- The totals of a snapshot that is up to date say nothing that its lines do not. -/
theorem eq_of_recounted {a b : FileSnapshot} (ha : a.totals = a.recount) (hb : b.totals = b.recount)
    (hname : a.filename = b.filename) (hlines : a.lines = b.lines) : a = b := by
  have htotals : a.totals = b.totals := by rw [ha, hb, recount, recount, hlines]
  cases a
  cases b
  cases hname
  cases hlines
  cases htotals
  rfl

theorem revised_revised (kept shown : Option LineSnapshot) :
    revised (revised kept shown) shown = revised kept shown := by
  cases kept <;> cases shown <;> rfl

/-- From the middle of its changes on, a dump brings a snapshot to the same end. -/
theorem Underway.merge (hnew : new.Tight) (h : Underway stored new now) :
    now.merge new = stored.merge new := by
  refine eq_of_recounted (totals_merge _ _) (totals_merge _ _) ?_ (lines_eq_of_line? ?_ ?_)
  · rw [filename_merge, filename_merge, h.filename]
  · rw [size_merge hnew, size_merge hnew]
    have hge := h.size_ge
    have hle := h.size_le
    omega
  · intro i
    rw [line?_merge, line?_merge]
    rcases h.lines i with hline | hline
    · rw [hline]
    · rw [hline, revised_revised]

/-- A dump changes nothing about a file that was stored as the dump has it. -/
theorem merge_self (hnew : new.Tight) (htotals : new.totals = new.recount) :
    new.merge new = new := by
  refine eq_of_recounted (totals_merge _ _) htotals (filename_merge _ _) (lines_eq_of_line? ?_ ?_)
  · rw [size_merge hnew, Nat.max_self]
  · intro i
    rw [line?_merge]
    cases new.line? i <;> rfl

end FileSnapshot

/-! ## The same dump once more -/

namespace Store

variable {s : Store} {dump : List FileSnapshot} {new : FileSnapshot}

theorem merged_foldl_applyTo {part : List Change} (hnew : new.Tight)
    (htotals : new.totals = new.recount)
    (h : part <+: s.fileChanges new) :
    merged (part.foldl applyTo (s.find? new.filename)) new =
      merged (s.find? new.filename) new := by
  unfold fileChanges at h
  split at h
  · rename_i hnone
    rw [hnone]
    rcases List.prefix_cons_iff.1 h with rfl | ⟨tail, rfl, htail⟩
    · rfl
    · rw [List.prefix_nil.1 htail]
      exact FileSnapshot.merge_self hnew htotals
  · rename_i stored hstored
    obtain ⟨part, hpart, rfl⟩ := List.prefix_map_iff.1 h
    rw [hstored, foldl_applyTo_changeFile]
    exact (FileSnapshot.underway_of_changes hpart).merge hnew

/-- A dump that has been absorbed in part and is then absorbed comes to the same as one that is
absorbed at once. -/
theorem find?_absorb_foldl (hdump : WellFormed dump) {made : List Change}
    (h : made <+: s.changes dump) (file : String) :
    ((made.foldl apply s).absorb dump).find? file = (s.absorb dump).find? file := by
  have hpart : changesOf file made <+: changesOf file (s.changes dump) := h.filter _
  rw [changesOf_changes hdump.nodup] at hpart
  rw [find?_absorb hdump.nodup, find?_absorb hdump.nodup, find?_foldl_apply]
  cases hsnapshot : snapshotOf dump file with
  | none =>
    rw [hsnapshot] at hpart
    rw [List.prefix_nil.1 hpart]
    rfl
  | some new =>
    rw [hsnapshot] at hpart
    obtain ⟨hmem, rfl⟩ := mem_of_snapshotOf hsnapshot
    exact congrArg some (merged_foldl_applyTo (hdump.tight new hmem) (hdump.totals new hmem) hpart)

/-- Wherever the changes of a dump are cut off, a line is as it was, or as the dump revises it. -/
theorem line?_foldl_part (hdump : WellFormed dump) {made : List Change}
    (h : made <+: s.changes dump) (file : String) (i : Nat) :
    (made.foldl apply s).line? file i = s.line? file i ∨
      (made.foldl apply s).line? file i =
        revised (s.line? file i) ((snapshotOf dump file).bind (·.line? i)) := by
  have hpart : changesOf file made <+: changesOf file (s.changes dump) := h.filter _
  rw [changesOf_changes hdump.nodup] at hpart
  simp only [line?, find?_foldl_apply]
  cases hsnapshot : snapshotOf dump file with
  | none =>
    rw [hsnapshot] at hpart
    rw [List.prefix_nil.1 hpart]
    exact .inl rfl
  | some new =>
    rw [hsnapshot] at hpart
    obtain ⟨-, rfl⟩ := mem_of_snapshotOf hsnapshot
    simp only [fileChanges] at hpart
    cases hstored : s.find? new.filename with
    | none =>
      rw [hstored] at hpart
      rcases List.prefix_cons_iff.1 hpart with hnil | ⟨tail, htail, hrest⟩
      · rw [hnil]
        exact .inl rfl
      · rw [htail, List.prefix_nil.1 hrest]
        exact .inr (line?_merged none new i)
    | some stored =>
      rw [hstored] at hpart
      obtain ⟨part, hpart, hmade⟩ := List.prefix_map_iff.1 hpart
      rw [hmade, foldl_applyTo_changeFile]
      exact (FileSnapshot.underway_of_changes hpart).lines i

theorem snapshots_congr {s t : Store} (h : ∀ file, s.find? file = t.find? file) :
    s.snapshots = t.snapshots := by
  have hequiv : s.files.Equiv t.files := Std.TreeMap.Equiv.of_forall_constGet?_eq h
  rw [snapshots, snapshots, hequiv.toList_eq]

end Store

end BytecodeCoverage
