-- SUMMARY: What all the changes of a dump do to the store, file by file.
import BytecodeCoverage.Proofs.Store.Revision

/-!
# Absorption of a dump

The changes of a dump are told for all of its files before the first is made. They come to the
same as one file after the other, because a dump shows a file once and a change of one file
leaves the others alone.
-/

namespace BytecodeCoverage

namespace Store

/-- The store after all changes that a dump makes. -/
def absorb (s : Store) (dump : List FileSnapshot) : Store := (s.changes dump).foldl apply s

/-- The stored line of a file at an index. -/
def line? (s : Store) (file : String) (i : Nat) : Option LineSnapshot :=
  (s.find? file).bind (·.line? i)

/-- What becomes of a file that a dump shows. -/
def merged : Option FileSnapshot → FileSnapshot → FileSnapshot
  | none, new => new
  | some stored, new => stored.merge new

theorem merged_filename {stored : Option FileSnapshot} {new : FileSnapshot}
    (h : ∀ s, stored = some s → s.filename = new.filename) :
    (merged stored new).filename = new.filename := by
  cases stored with
  | none => rfl
  | some s => exact (FileSnapshot.filename_merge s new).trans (h s rfl)

theorem line?_merged (stored : Option FileSnapshot) (new : FileSnapshot) (i : Nat) :
    (merged stored new).line? i = LineSnapshot.revised (stored.bind (·.line? i)) (new.line? i) := by
  cases stored with
  | none =>
    cases h : new.line? i with
    | none => exact h
    | some line => exact h
  | some s => exact FileSnapshot.line?_merge s new i

/-- The length of a snapshot, if there is one. -/
def length : Option FileSnapshot → Nat
  | none => 0
  | some s => s.lines.size

theorem length_merged {stored : Option FileSnapshot} {new : FileSnapshot} (h : new.Tight) :
    (merged stored new).lines.size = max (length stored) new.lines.size := by
  cases stored with
  | none => exact (Nat.zero_max _).symm
  | some s => exact FileSnapshot.size_merge h

theorem totals_merged {stored : Option FileSnapshot} {new : FileSnapshot}
    (h : new.totals = new.recount) :
    (merged stored new).totals = (merged stored new).recount := by
  cases stored with
  | none => exact h
  | some s => exact FileSnapshot.totals_merge s new

/-! ## One file -/

theorem find?_foldl_changeFile (name : String) (changes : List FileChange) (s : Store)
    (file : String) :
    ((changes.map (.changeFile name)).foldl apply s).find? file =
      if name = file then (s.find? name).map (changes.foldl FileSnapshot.apply ·)
      else s.find? file := by
  induction changes generalizing s with
  | nil =>
    split
    · rename_i h
      subst h
      simp
    · rfl
  | cons change changes ih =>
    rw [List.map_cons, List.foldl_cons, ih, find?_apply_changeFile, find?_apply_changeFile]
    split
    · simp only [if_pos, Option.map_map]
      rfl
    · rfl

theorem find?_foldl_fileChanges (s : Store) (new : FileSnapshot) (file : String) :
    ((s.fileChanges new).foldl apply s).find? file =
      if new.filename = file then some (merged (s.find? new.filename) new)
      else s.find? file := by
  unfold fileChanges
  split
  · rename_i hnone
    rw [hnone]
    exact find?_apply_addFile s new file
  · rename_i stored hstored
    rw [find?_foldl_changeFile, hstored]
    rfl

theorem fileChanges_congr {s t : Store} {new : FileSnapshot}
    (h : s.find? new.filename = t.find? new.filename) : s.fileChanges new = t.fileChanges new := by
  rw [fileChanges, h]
  rfl

/-! ## All files -/

/-- The changes of the other files are the same before and after those of the first. -/
theorem changes_cons (s : Store) {new : FileSnapshot} {rest : List FileSnapshot}
    (h : new.filename ∉ rest.map (·.filename)) :
    s.changes (new :: rest) =
      s.fileChanges new ++ ((s.fileChanges new).foldl apply s).changes rest := by
  have hrest : ∀ other ∈ rest,
      s.fileChanges other = ((s.fileChanges new).foldl apply s).fileChanges other := by
    intro other hother
    have hne : new.filename ≠ other.filename := fun heq => h (heq ▸ List.mem_map_of_mem hother)
    refine fileChanges_congr ?_
    rw [find?_foldl_fileChanges, if_neg hne]
  rw [changes, changes, List.flatMap_cons, List.flatMap_def, List.map_congr_left hrest]
  rfl

theorem absorb_cons (s : Store) {new : FileSnapshot} {rest : List FileSnapshot}
    (h : new.filename ∉ rest.map (·.filename)) :
    s.absorb (new :: rest) = ((s.fileChanges new).foldl apply s).absorb rest := by
  rw [absorb, changes_cons s h, List.foldl_append]
  rfl

/-- The snapshot of a file in a dump, if the dump shows the file. -/
def snapshotOf (dump : List FileSnapshot) (file : String) : Option FileSnapshot :=
  dump.find? (·.filename = file)

theorem mem_of_snapshotOf {dump : List FileSnapshot} {file : String} {new : FileSnapshot}
    (h : snapshotOf dump file = some new) : new ∈ dump ∧ new.filename = file := by
  unfold snapshotOf at h
  have hname := List.find?_some h
  exact ⟨List.mem_of_find?_eq_some h, of_decide_eq_true hname⟩

theorem snapshotOf_eq_none_iff {dump : List FileSnapshot} {file : String} :
    snapshotOf dump file = none ↔ file ∉ dump.map (·.filename) := by
  simp [snapshotOf]

/-- A file that the dump does not show stays as it was, and one that it shows is merged. -/
theorem find?_absorb {dump : List FileSnapshot} (hnodup : (dump.map (·.filename)).Nodup)
    (s : Store) (file : String) :
    (s.absorb dump).find? file =
      match snapshotOf dump file with
      | none => s.find? file
      | some new => some (merged (s.find? file) new) := by
  induction dump generalizing s with
  | nil => rfl
  | cons new rest ih =>
    obtain ⟨hnew, hnodup⟩ := List.nodup_cons.1 hnodup
    rw [absorb_cons s hnew, ih hnodup, find?_foldl_fileChanges, snapshotOf, snapshotOf,
      List.find?_cons]
    by_cases hfile : new.filename = file
    · subst hfile
      have hrest : rest.find? (·.filename = new.filename) = none := snapshotOf_eq_none_iff.2 hnew
      simp [hrest]
    · simp [hfile]

theorem line?_absorb {dump : List FileSnapshot} (hnodup : (dump.map (·.filename)).Nodup)
    (s : Store) (file : String) (i : Nat) :
    (s.absorb dump).line? file i =
      LineSnapshot.revised (s.line? file i) ((snapshotOf dump file).bind (·.line? i)) := by
  rw [line?, find?_absorb hnodup]
  cases snapshotOf dump file with
  | none => exact (LineSnapshot.revised_none _).symm
  | some new => exact line?_merged (s.find? file) new i

theorem length_absorb {dump : List FileSnapshot} (hnodup : (dump.map (·.filename)).Nodup)
    (htight : ∀ new ∈ dump, new.Tight) (s : Store) (file : String) :
    length ((s.absorb dump).find? file) =
      max (length (s.find? file)) (length (snapshotOf dump file)) := by
  rw [find?_absorb hnodup]
  cases h : snapshotOf dump file with
  | none => exact (Nat.max_zero _).symm
  | some new => exact length_merged (htight new (mem_of_snapshotOf h).1)

end Store

end BytecodeCoverage
