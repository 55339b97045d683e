-- SUMMARY: What is announced of the changes of a dump is the difference that they make.
import BytecodeCoverage.Event
import BytecodeCoverage.Proofs.Store.Absorption

/-!
# Differences

A change is announced with the data that the store has for it right after the change. Told so,
the changes of a dump are what sets the store after the dump apart from the store before it: no
change is made twice, and none that is made is taken back.
-/

namespace BytecodeCoverage

open LineSnapshot (report revised)

/-- What observers are told: an event of some kind, with its data. -/
structure Announcement where
  kind : EventKind
  notice : Notice
  deriving Repr, DecidableEq

/-- The file that a notice is about. -/
def Notice.subject : Notice → String
  | .plain name => name
  | .file name _ => name
  | .line name _ _ => name

/-! ## The difference of two stores -/

/-- The difference at a line. A line that comes into being is announced by its number, and one
with another report by its index. -/
def lineDifference (file : String) (i : Nat) : Option LineSnapshot → Option LineSnapshot →
    Option Announcement
  | none, some now => some ⟨.lineUpdate, .line file (i + 1) (some now)⟩
  | some old, some now =>
    if old.report = now.report then none else some ⟨.lineUpdate, .line file i (some now)⟩
  | _, none => none

/-- The difference of two snapshots of a file: line by line, and then the totals. -/
def snapshotDifference (file : String) (old now : FileSnapshot) : List Announcement :=
  (List.range now.lines.size).filterMap (fun i => lineDifference file i (old.line? i) (now.line? i))
    ++ if old.totals = now.totals then [] else [⟨.fileUpdate, .file file (some now)⟩]

/-- The difference at a file. A file that comes into being is announced as a whole. -/
def fileDifference (file : String) : Option FileSnapshot → Option FileSnapshot → List Announcement
  | none, some now => [⟨.newFile, .file file (some now)⟩]
  | some old, some now => snapshotDifference file old now
  | _, none => []

/-- The difference of two stores at some files, one after the other. -/
def Store.difference (before after : Store) (files : List String) : List Announcement :=
  files.flatMap fun file => fileDifference file (before.find? file) (after.find? file)

theorem lineDifference_self (file : String) (i : Nat) (line : Option LineSnapshot) :
    lineDifference file i line line = none := by
  cases line with
  | none => rfl
  | some line => exact if_pos rfl

theorem fileDifference_self (file : String) (stored : Option FileSnapshot) :
    fileDifference file stored stored = [] := by
  cases stored with
  | none => rfl
  | some s => simp [fileDifference, snapshotDifference, lineDifference_self]

theorem subject_of_lineDifference {file : String} {i : Nat} {old now : Option LineSnapshot}
    {a : Announcement} (h : lineDifference file i old now = some a) : a.notice.subject = file := by
  unfold lineDifference at h
  split at h
  · cases h
    rfl
  · split at h
    · cases h
    · cases h
      rfl
  · cases h

theorem subject_of_mem_fileDifference {file : String} {old now : Option FileSnapshot}
    {a : Announcement} (h : a ∈ fileDifference file old now) : a.notice.subject = file := by
  unfold fileDifference at h
  split at h
  · cases List.mem_singleton.1 h
    rfl
  · rcases List.mem_append.1 h with hline | htotals
    · obtain ⟨i, -, hi⟩ := List.mem_filterMap.1 hline
      exact subject_of_lineDifference hi
    · split at htotals
      · cases htotals
      · cases List.mem_singleton.1 htotals
        rfl
  · cases h

theorem subject_of_mem_difference {before after : Store} {files : List String} {a : Announcement}
    (h : a ∈ before.difference after files) : a.notice.subject ∈ files := by
  obtain ⟨file, hfile, ha⟩ := List.mem_flatMap.1 h
  rw [subject_of_mem_fileDifference ha]
  exact hfile

/-! ## Changes of one file -/

namespace FileSnapshot

variable {stored new : FileSnapshot}

/-- What is announced of a change of a file, with the snapshot after it. -/
def announce (file : String) (now : FileSnapshot) : FileChange → Announcement
  | .adopt i _ => ⟨.lineUpdate, .line file (i + 1) (now.line? i)⟩
  | .revise i _ _ => ⟨.lineUpdate, .line file i (now.line? i)⟩
  | .retotal _ => ⟨.fileUpdate, .file file (some now)⟩

/-- What is announced of changes of a file that are made one after the other. -/
def announcements (file : String) : FileSnapshot → List FileChange → List Announcement
  | _, [] => []
  | s, change :: rest =>
    announce file (s.apply change) change :: announcements file (s.apply change) rest

theorem announcements_append (file : String) (s : FileSnapshot) (first rest : List FileChange) :
    announcements file s (first ++ rest) =
      announcements file s first ++ announcements file (first.foldl apply s) rest := by
  induction first generalizing s with
  | nil => rfl
  | cons change first ih => exact congrArg (announce file _ change :: ·) (ih _)

/-- The difference that a dump makes at an index. -/
def differenceAt (file : String) (stored new : FileSnapshot) (i : Nat) : Option Announcement :=
  lineDifference file i (stored.line? i) (revised (stored.line? i) (new.line? i))

theorem differenceAt_of_changeAt_eq_none (file : String) {i : Nat}
    (h : stored.changeAt new i = none) : differenceAt file stored new i = none := by
  rw [differenceAt, revised_of_changeAt_eq_none h]
  exact lineDifference_self file i _

/-- A change at an index is announced as the difference there, with any snapshot that has the line
as the change leaves it. -/
theorem announce_of_revised (file : String) {now : FileSnapshot} {i : Nat} {change : FileChange}
    (h : stored.changeAt new i = some change)
    (hnow : now.line? i = revised (stored.line? i) (new.line? i)) :
    differenceAt file stored new i = some (announce file now change) := by
  obtain ⟨line, hline, hchange⟩ := Option.bind_eq_some_iff.1 h
  unfold lineChange? at hchange
  unfold differenceAt
  split at hchange
  · rename_i hmissing
    cases hchange
    rw [announce, hnow, hmissing, hline]
    rfl
  · rename_i kept hkept
    split at hchange
    · cases hchange
    · rename_i hagrees
      cases hchange
      rw [announce, hnow, hkept, hline]
      exact if_neg fun hreport => hagrees (LineSnapshot.agrees_iff.2 hreport)

theorem announce_changeAt (file : String) {s : FileSnapshot} {i : Nat} {change : FileChange}
    (h : stored.changeAt new i = some change) (hs : s.line? i = stored.line? i) :
    differenceAt file stored new i = some (announce file (s.apply change) change) := by
  have hnow := line?_apply_changeAt h hs i
  rw [if_pos rfl] at hnow
  exact announce_of_revised file h hnow

theorem totals_apply_changeAt {i : Nat} {change : FileChange}
    (h : stored.changeAt new i = some change) (s : FileSnapshot) :
    (s.apply change).totals = s.totals := by
  obtain ⟨line, -, hchange⟩ := Option.bind_eq_some_iff.1 h
  unfold lineChange? at hchange
  split at hchange
  · cases hchange
    rfl
  · split at hchange
    · cases hchange
    · cases hchange
      rfl

theorem announcements_changeAt (file : String) (indices : List Nat) (hnodup : indices.Nodup)
    (s : FileSnapshot) (hs : ∀ i ∈ indices, s.line? i = stored.line? i) :
    announcements file s (indices.filterMap (stored.changeAt new)) =
      indices.filterMap (differenceAt file stored new) := by
  induction indices generalizing s with
  | nil => rfl
  | cons i indices ih =>
    obtain ⟨hi, hnodup⟩ := List.nodup_cons.1 hnodup
    have hsi := hs i (.head _)
    have hrest : ∀ k ∈ indices, s.line? k = stored.line? k := fun k hk => hs k (.tail _ hk)
    cases hchange : stored.changeAt new i with
    | none =>
      rw [List.filterMap_cons_none hchange,
        List.filterMap_cons_none (differenceAt_of_changeAt_eq_none file hchange)]
      exact ih hnodup s hrest
    | some change =>
      rw [List.filterMap_cons_some hchange,
        List.filterMap_cons_some (announce_changeAt file hchange hsi), announcements]
      refine congrArg (_ :: ·) (ih hnodup _ ?_)
      intro k hk
      have hik : i ≠ k := fun hik => hi (hik ▸ hk)
      rw [line?_apply_changeAt hchange hsi, if_neg hik]
      exact hrest k hk

theorem map_announce_changeAt (file : String) (indices : List Nat) {now : FileSnapshot}
    (hnow : ∀ i, now.line? i = revised (stored.line? i) (new.line? i)) :
    (indices.filterMap (stored.changeAt new)).map (announce file now) =
      indices.filterMap (differenceAt file stored new) := by
  rw [List.map_filterMap]
  congr 1
  funext i
  cases hchange : stored.changeAt new i with
  | none => exact (differenceAt_of_changeAt_eq_none file hchange).symm
  | some change => exact (announce_of_revised file hchange (hnow i)).symm

/-- It does not matter whether the changes of a dump are announced one by one or after the last. -/
theorem announcements_changes_eq_map (file : String) (stored new : FileSnapshot) :
    announcements file stored (stored.changes new) =
      (stored.changes new).map (announce file (stored.merge new)) := by
  have hlines : announcements file stored (stored.lineChanges new) =
      (stored.lineChanges new).map (announce file (stored.merge new)) := by
    rw [lineChanges_eq, map_announce_changeAt file _ fun i => line?_merge stored new i]
    exact announcements_changeAt file _ List.nodup_range stored fun _ _ => rfl
  have hmerge : stored.merge new =
      (((stored.lineChanges new).foldl apply stored).totalsChange?).toList.foldl apply
        ((stored.lineChanges new).foldl apply stored) := by
    rw [merge, changes, List.foldl_append]
  rw [changes, announcements_append, List.map_append, hlines]
  congr 1
  cases htotals : ((stored.lineChanges new).foldl apply stored).totalsChange? with
  | none => rfl
  | some change =>
    rw [htotals] at hmerge
    rw [hmerge]
    rfl

theorem filterMap_range_extend {α : Type} {f : Nat → Option α} {n m : Nat} (hle : n ≤ m)
    (hnone : ∀ i, n ≤ i → f i = none) :
    (List.range m).filterMap f = (List.range n).filterMap f := by
  obtain ⟨k, rfl⟩ := Nat.exists_eq_add_of_le hle
  induction k with
  | zero => rfl
  | succ k ih =>
    rw [← Nat.add_assoc, List.range_succ, List.filterMap_append, ih (Nat.le_add_right n k)]
    simp [hnone (n + k) (Nat.le_add_right n k)]

theorem announcements_lineChanges (file : String) (hnew : new.Tight) :
    announcements file stored (stored.lineChanges new) =
      (List.range (stored.merge new).lines.size).filterMap fun i =>
        lineDifference file i (stored.line? i) ((stored.merge new).line? i) := by
  have hat : (fun i => lineDifference file i (stored.line? i) ((stored.merge new).line? i)) =
      differenceAt file stored new := by
    funext i
    rw [line?_merge]
    rfl
  have hsize : new.lines.size ≤ (stored.merge new).lines.size := by
    rw [size_merge hnew]
    exact Nat.le_max_right _ _
  -- Past the end of the dump's lines there is no change and no difference.
  rw [hat, filterMap_range_extend hsize, lineChanges_eq]
  · exact announcements_changeAt file _ List.nodup_range stored fun _ _ => rfl
  · intro i hi
    refine differenceAt_of_changeAt_eq_none file ?_
    rw [changeAt, line?_eq_none hi]
    rfl

theorem totals_lineChanges :
    ((stored.lineChanges new).foldl apply stored).totals = stored.totals := by
  have hfold : ∀ (indices : List Nat) (s : FileSnapshot),
      ((indices.filterMap (stored.changeAt new)).foldl apply s).totals = s.totals := by
    intro indices
    induction indices with
    | nil => exact fun _ => rfl
    | cons i indices ih =>
      intro s
      cases hchange : stored.changeAt new i with
      | none =>
        rw [List.filterMap_cons_none hchange]
        exact ih s
      | some change =>
        rw [List.filterMap_cons_some hchange, List.foldl_cons, ih]
        exact totals_apply_changeAt hchange s
  rw [lineChanges_eq]
  exact hfold _ stored

/-- The changes of a dump of a known file are announced as the difference that they make. -/
theorem announcements_changes (file : String) (hnew : new.Tight) :
    announcements file stored (stored.changes new) =
      snapshotDifference file stored (stored.merge new) := by
  rw [changes, announcements_append, announcements_lineChanges file hnew, snapshotDifference]
  congr 1
  have htotals : (stored.merge new).totals =
      ((stored.lineChanges new).foldl apply stored).recount := by
    rw [merge_eq]
    rfl
  rw [htotals]
  unfold totalsChange?
  rw [totals_lineChanges]
  split
  · rename_i h
    rw [if_pos h.symm]
    rfl
  · rename_i h
    rw [if_neg (Ne.symm h), merge_eq]
    rfl

end FileSnapshot

/-! ## Changes of the store -/

namespace Store

/-- What is announced of a change, with the store after it. -/
def announce (now : Store) (change : Change) : Announcement :=
  ⟨change.event.kind, change.event.notice now⟩

/-- What is announced of changes that are made one after the other. -/
def announcements : Store → List Change → List Announcement
  | _, [] => []
  | s, change :: rest =>
    announce (s.apply change) change :: announcements (s.apply change) rest

theorem announcements_append (s : Store) (first rest : List Change) :
    s.announcements (first ++ rest) =
      s.announcements first ++ (first.foldl apply s).announcements rest := by
  induction first generalizing s with
  | nil => rfl
  | cons change first ih => exact congrArg (announce _ change :: ·) (ih _)

theorem announce_changeFile {s : Store} {name : String} {now : FileSnapshot}
    (h : s.find? name = some now) (change : FileChange) :
    s.announce (.changeFile name change) = FileSnapshot.announce name now change := by
  cases change with
  | adopt i line =>
    simp only [announce, Change.event, Event.notice, h]
    rfl
  | revise i coverage counts =>
    simp only [announce, Change.event, Event.notice, h]
    rfl
  | retotal totals =>
    simp only [announce, Change.event, Event.notice, h]
    rfl

theorem announcements_changeFile {s : Store} {name : String} {stored : FileSnapshot}
    (h : s.find? name = some stored) (changes : List FileChange) :
    s.announcements (changes.map (.changeFile name)) =
      FileSnapshot.announcements name stored changes := by
  induction changes generalizing s stored with
  | nil => rfl
  | cons change changes ih =>
    have hnext : (s.apply (.changeFile name change)).find? name = some (stored.apply change) := by
      rw [find?_apply_changeFile, if_pos rfl, h]
      rfl
    rw [List.map_cons, announcements, announce_changeFile hnext, ih hnext]
    rfl

/-- What a dump does to one file is announced as the difference at the file. -/
theorem announcements_fileChanges (s : Store) {new : FileSnapshot} (hnew : new.Tight) :
    s.announcements (s.fileChanges new) =
      fileDifference new.filename (s.find? new.filename)
        (some (merged (s.find? new.filename) new)) := by
  unfold fileChanges
  split
  · rename_i hnone
    have hstored := find?_apply_addFile s new new.filename
    rw [if_pos rfl] at hstored
    rw [hnone, announcements, announce, Change.event, Event.notice, hstored]
    rfl
  · rename_i stored hstored
    rw [hstored, announcements_changeFile hstored]
    exact FileSnapshot.announcements_changes new.filename hnew

theorem difference_congr {before before' after : Store} {files : List String}
    (h : ∀ file ∈ files, before.find? file = before'.find? file) :
    before.difference after files = before'.difference after files := by
  rw [difference, difference, List.flatMap_def, List.flatMap_def]
  refine congrArg List.flatten (List.map_congr_left ?_)
  intro file hfile
  rw [h file hfile]

/-- By induction on the files of the dump: what is done for one of them changes nothing about what
is done for the others. -/
theorem announcements_changes {dump : List FileSnapshot}
    (hnodup : (dump.map (·.filename)).Nodup) (htight : ∀ new ∈ dump, new.Tight) (s : Store) :
    s.announcements (s.changes dump) = s.difference (s.absorb dump) (dump.map (·.filename)) := by
  induction dump generalizing s with
  | nil => rfl
  | cons new rest ih =>
    obtain ⟨hnew, hrest⟩ := List.nodup_cons.1 hnodup
    have hafter : (s.absorb (new :: rest)).find? new.filename =
        some (merged (s.find? new.filename) new) := by
      rw [find?_absorb hnodup, snapshotOf, List.find?_cons_of_pos (by simp)]
    have hothers : ∀ file ∈ rest.map (·.filename),
        ((s.fileChanges new).foldl apply s).find? file = s.find? file := by
      intro file hfile
      have hne : new.filename ≠ file := by
        rintro rfl
        exact hnew hfile
      rw [find?_foldl_fileChanges, if_neg hne]
    have htail := ih hrest (fun other hother => htight other (.tail _ hother))
      ((s.fileChanges new).foldl apply s)
    rw [← absorb_cons s hnew, difference_congr hothers] at htail
    rw [changes_cons s hnew, announcements_append, htail,
      announcements_fileChanges s (htight new (.head _)), List.map_cons]
    simp only [difference, List.flatMap_cons, hafter]

theorem announcements_fileChanges_eq_map (s : Store) {new : FileSnapshot} {now : Store}
    (hnow : now.find? new.filename = some (merged (s.find? new.filename) new)) :
    s.announcements (s.fileChanges new) = (s.fileChanges new).map now.announce := by
  unfold fileChanges
  split
  · rename_i hnone
    have hstored := find?_apply_addFile s new new.filename
    rw [if_pos rfl] at hstored
    rw [hnone] at hnow
    rw [announcements, announce, Change.event, Event.notice, hstored, List.map_singleton, announce,
      Change.event, Event.notice, hnow]
    rfl
  · rename_i stored hstored
    rw [hstored] at hnow
    have hannounce : now.announce ∘ Change.changeFile new.filename =
        FileSnapshot.announce new.filename (stored.merge new) :=
      funext fun change => announce_changeFile hnow change
    rw [announcements_changeFile hstored, List.map_map, hannounce]
    exact FileSnapshot.announcements_changes_eq_map new.filename stored new

/-- An event tells the same when all changes of its dump are made as it does right after its own. By
induction on the files of the dump. -/
theorem announcements_changes_eq_map {dump : List FileSnapshot}
    (hnodup : (dump.map (·.filename)).Nodup) (s : Store) :
    s.announcements (s.changes dump) = (s.changes dump).map (s.absorb dump).announce := by
  induction dump generalizing s with
  | nil => rfl
  | cons new rest ih =>
    obtain ⟨hnew, hrest⟩ := List.nodup_cons.1 hnodup
    have hafter : (s.absorb (new :: rest)).find? new.filename =
        some (merged (s.find? new.filename) new) := by
      rw [find?_absorb hnodup, snapshotOf, List.find?_cons_of_pos (by simp)]
    rw [changes_cons s hnew, announcements_append, List.map_append,
      announcements_fileChanges_eq_map s hafter, ih hrest, absorb_cons s hnew]

theorem length_announcements (s : Store) (changes : List Change) :
    (s.announcements changes).length = changes.length := by
  induction changes generalizing s with
  | nil => rfl
  | cons change rest ih => exact congrArg (· + 1) (ih _)

/-- Nothing is announced just if the dump leaves all snapshots as they were. -/
theorem difference_absorb_eq_nil_iff {dump : List FileSnapshot}
    (hnodup : (dump.map (·.filename)).Nodup) (htight : ∀ new ∈ dump, new.Tight) (s : Store) :
    s.difference (s.absorb dump) (dump.map (·.filename)) = [] ↔
      ∀ file, (s.absorb dump).find? file = s.find? file := by
  constructor
  · intro h
    -- Each change is announced, so nothing has been changed if nothing was announced.
    rw [← announcements_changes hnodup htight] at h
    have hchanges : s.changes dump = [] := by
      have hlength := length_announcements s (s.changes dump)
      rw [h] at hlength
      exact List.eq_nil_of_length_eq_zero hlength.symm
    intro file
    rw [absorb, hchanges]
    rfl
  · intro h
    refine List.flatMap_eq_nil_iff.2 ?_
    intro file _
    rw [h file]
    exact fileDifference_self file _

end Store

end BytecodeCoverage
