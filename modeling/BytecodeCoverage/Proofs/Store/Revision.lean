-- SUMMARY: What the changes that a dump makes to a stored snapshot come to, line by line.
import BytecodeCoverage.Store

/-!
# Revision of a stored snapshot

The changes are told before any of them is made, and then made one after the other. Since each
of them is about a line of its own, what becomes of a line depends on that line alone: it is
kept, adopted or revised. The totals follow from the lines.
-/

namespace BytecodeCoverage

/-! ## Lines -/

namespace LineSnapshot

/-- What a line reports: its class and its counts, without the function marks. -/
def report (l : LineSnapshot) : CoverageClass × List Int := (l.coverage, l.counts)

/-- The stored line with what another one reports. -/
def revise (kept line : LineSnapshot) : LineSnapshot :=
  { kept with coverage := line.coverage, counts := line.counts }

/-- What becomes of a line of which a dump shows something or nothing. -/
def revised : Option LineSnapshot → Option LineSnapshot → Option LineSnapshot
  | kept, none => kept
  | none, some line => some line
  | some kept, some line => some (kept.revise line)

theorem agrees_iff {a b : LineSnapshot} : a.agrees b ↔ a.report = b.report := by
  simp [agrees, report]

theorem revise_eq_self {kept line : LineSnapshot} (h : kept.agrees line) :
    kept.revise line = kept := by
  obtain ⟨hcoverage, hcounts⟩ := Prod.mk.inj (agrees_iff.1 h)
  simp only [revise, ← hcoverage, ← hcounts]

@[simp] theorem revised_none (kept : Option LineSnapshot) : revised kept none = kept := by
  cases kept <;> rfl

theorem revised_some (kept : Option LineSnapshot) (line : LineSnapshot) :
    (revised kept (some line)).map report = some line.report := by
  cases kept <;> rfl

theorem revised_eq_none_iff {kept shown : Option LineSnapshot} :
    revised kept shown = none ↔ kept = none ∧ shown = none := by
  cases kept <;> cases shown <;> simp [revised]

end LineSnapshot

/-! ## Single changes -/

namespace FileSnapshot

open LineSnapshot

theorem line?_eq_none {s : FileSnapshot} {i : Nat} (h : s.lines.size ≤ i) : s.line? i = none := by
  simp [line?, Array.getElem?_eq_none h]

theorem lt_size_of_line? {s : FileSnapshot} {i : Nat} {line : LineSnapshot}
    (h : s.line? i = some line) : i < s.lines.size := by
  refine Nat.lt_of_not_le fun hle => ?_
  rw [line?_eq_none hle] at h
  cases h

@[simp] theorem filename_apply (s : FileSnapshot) (change : FileChange) :
    (s.apply change).filename = s.filename := by
  cases change <;> rfl

theorem line?_apply_revise (s : FileSnapshot) (i j : Nat) (line : LineSnapshot) :
    (s.apply (.revise i line.coverage line.counts)).line? j =
      if i = j then (s.line? i).map (·.revise line) else s.line? j := by
  simp only [apply, line?, Array.getElem?_modify]
  split
  · rename_i hij
    subst hij
    cases s.lines[i]? with
    | none => rfl
    | some kept => cases kept <;> rfl
  · rfl

@[simp] theorem line?_retotal (s : FileSnapshot) (i : Nat) : s.retotal.line? i = s.line? i := rfl

/-- The change that a dump makes at an index, if it makes one. -/
def changeAt (stored new : FileSnapshot) (i : Nat) : Option FileChange :=
  (new.line? i).bind (stored.lineChange? i)

/-- A change is about its own line. It is made to a snapshot that has the stored line there. -/
theorem line?_apply_changeAt {stored new s : FileSnapshot} {i : Nat} {change : FileChange}
    (h : stored.changeAt new i = some change) (hs : s.line? i = stored.line? i) (j : Nat) :
    (s.apply change).line? j =
      if i = j then revised (stored.line? i) (new.line? i) else s.line? j := by
  obtain ⟨line, hline, hchange⟩ := Option.bind_eq_some_iff.1 h
  unfold lineChange? at hchange
  split at hchange
  · rename_i hmissing
    cases hchange
    rw [hline, hmissing]
    exact line?_setLine s i j line
  · rename_i kept hkept
    split at hchange
    · cases hchange
    · cases hchange
      rw [line?_apply_revise, hs, hline, hkept]
      rfl

/-- Where a dump makes no change, the line is revised to what it was. -/
theorem revised_of_changeAt_eq_none {stored new : FileSnapshot} {i : Nat}
    (h : stored.changeAt new i = none) :
    revised (stored.line? i) (new.line? i) = stored.line? i := by
  unfold changeAt at h
  cases hline : new.line? i with
  | none => exact revised_none _
  | some line =>
    rw [hline] at h
    simp only [Option.bind_some, lineChange?] at h
    split at h
    · cases h
    · rename_i kept hkept
      split at h
      · rename_i hagrees
        rw [hkept]
        exact congrArg some (revise_eq_self hagrees)
      · cases h

/-! ## All changes of a dump -/

theorem lineChanges_eq (stored new : FileSnapshot) :
    stored.lineChanges new = (List.range new.lines.size).filterMap (stored.changeAt new) := by
  have hmap : (new.lines.mapIdx fun i line => line.bind (stored.lineChange? i)).toList =
      (List.range new.lines.size).map (stored.changeAt new) := by
    apply List.ext_getElem
    · simp
    · intro i h h'
      simp only [Array.length_toList, Array.size_mapIdx] at h
      simp [changeAt, line?, Array.getElem?_eq_getElem h]
  rw [lineChanges, Array.toList_filterMap, hmap, List.filterMap_map]
  rfl

/-- By induction on the indices: what is done at one of them leaves the others as they were. -/
theorem line?_foldl_changeAt {stored new : FileSnapshot} (indices : List Nat)
    (hnodup : indices.Nodup) (s : FileSnapshot) (hs : ∀ i ∈ indices, s.line? i = stored.line? i)
    (j : Nat) :
    ((indices.filterMap (stored.changeAt new)).foldl apply s).line? j =
      if j ∈ indices then revised (stored.line? j) (new.line? j) else s.line? j := by
  induction indices generalizing s with
  | nil => rfl
  | cons i indices ih =>
    obtain ⟨hi, hnodup⟩ := List.nodup_cons.1 hnodup
    have hsi := hs i (.head _)
    cases hchange : stored.changeAt new i with
    | none =>
      rw [List.filterMap_cons_none hchange, ih hnodup s fun k hk => hs k (.tail _ hk)]
      by_cases hji : j = i
      · subst hji
        simp [hi, hsi, revised_of_changeAt_eq_none hchange]
      · simp [hji]
    | some change =>
      have hat := line?_apply_changeAt hchange hsi
      rw [List.filterMap_cons_some hchange, List.foldl_cons, ih hnodup]
      · rw [hat j]
        by_cases hji : j = i
        · subst hji
          simp [hi]
        · simp [hji, Ne.symm hji]
      · intro k hk
        have hik : i ≠ k := fun hik => hi (hik ▸ hk)
        rw [hat k, if_neg hik]
        exact hs k (.tail _ hk)

theorem line?_foldl_lineChanges (stored new : FileSnapshot) (i : Nat) :
    ((stored.lineChanges new).foldl apply stored).line? i =
      revised (stored.line? i) (new.line? i) := by
  rw [lineChanges_eq, line?_foldl_changeAt _ List.nodup_range stored fun _ _ => rfl]
  split
  · rfl
  · rename_i hi
    rw [List.mem_range, Nat.not_lt] at hi
    rw [line?_eq_none hi, revised_none]

/-- The stored snapshot after all changes that a dump makes to it. -/
def merge (stored new : FileSnapshot) : FileSnapshot := (stored.changes new).foldl apply stored

/-- The totals come last and are counted from the lines as they are by then. -/
theorem merge_eq (stored new : FileSnapshot) :
    stored.merge new = ((stored.lineChanges new).foldl apply stored).retotal := by
  rw [merge, changes, List.foldl_append]
  unfold totalsChange?
  split
  · rename_i h
    rw [retotal, h]
    rfl
  · rfl

theorem line?_merge (stored new : FileSnapshot) (i : Nat) :
    (stored.merge new).line? i = revised (stored.line? i) (new.line? i) := by
  rw [merge_eq, line?_retotal, line?_foldl_lineChanges]

theorem totals_merge (stored new : FileSnapshot) :
    (stored.merge new).totals = (stored.merge new).recount := by
  rw [merge_eq]
  rfl

theorem filename_foldl_apply (changes : List FileChange) (s : FileSnapshot) :
    (changes.foldl apply s).filename = s.filename := by
  induction changes generalizing s with
  | nil => rfl
  | cons change changes ih => rw [List.foldl_cons, ih, filename_apply]

@[simp] theorem filename_merge (stored new : FileSnapshot) :
    (stored.merge new).filename = stored.filename := filename_foldl_apply _ _

/-! ## Lengths -/

/-- The last line of the snapshot is no gap. -/
def Tight (s : FileSnapshot) : Prop := ∀ i, s.lines.size = i + 1 → s.line? i ≠ none

theorem Tight.setLine {s : FileSnapshot} (h : s.Tight) (i : Nat) (line : LineSnapshot) :
    (s.setLine i line).Tight := by
  intro j hj
  rw [size_setLine] at hj
  rw [line?_setLine]
  split
  · simp
  · rename_i hij
    exact h j (by omega)

theorem size_apply_changeAt {stored new : FileSnapshot} {i : Nat} {change : FileChange}
    (h : stored.changeAt new i = some change) (s : FileSnapshot) :
    s.lines.size ≤ (s.apply change).lines.size ∧
      (s.apply change).lines.size ≤ max s.lines.size (i + 1) := by
  obtain ⟨line, hline, hchange⟩ := Option.bind_eq_some_iff.1 h
  unfold lineChange? at hchange
  split at hchange
  · cases hchange
    rw [apply, size_setLine]
    exact ⟨Nat.le_max_left _ _, Nat.le_refl _⟩
  · split at hchange
    · cases hchange
    · cases hchange
      rw [apply, Array.size_modify]
      exact ⟨Nat.le_refl _, Nat.le_max_left _ _⟩

theorem size_foldl_changeAt {stored new : FileSnapshot} {n : Nat} (indices : List Nat)
    (hlt : ∀ i ∈ indices, i < n) (s : FileSnapshot) :
    let s' := (indices.filterMap (stored.changeAt new)).foldl apply s
    s.lines.size ≤ s'.lines.size ∧ s'.lines.size ≤ max s.lines.size n := by
  induction indices generalizing s with
  | nil => exact ⟨Nat.le_refl _, Nat.le_max_left _ _⟩
  | cons i indices ih =>
    have hi := hlt i (.head _)
    have hrest := ih fun k hk => hlt k (.tail _ hk)
    cases hchange : stored.changeAt new i with
    | none =>
      rw [List.filterMap_cons_none hchange]
      exact hrest s
    | some change =>
      rw [List.filterMap_cons_some hchange, List.foldl_cons]
      have hone := size_apply_changeAt hchange s
      have hmore := hrest (s.apply change)
      simp only at hmore ⊢
      omega

/-- A stored snapshot gets as long as the dump's, if it is shorter. -/
theorem size_merge {stored new : FileSnapshot} (hnew : new.Tight) :
    (stored.merge new).lines.size = max stored.lines.size new.lines.size := by
  have hsize : stored.lines.size ≤ (stored.merge new).lines.size ∧
      (stored.merge new).lines.size ≤ max stored.lines.size new.lines.size := by
    rw [merge_eq, lineChanges_eq]
    exact size_foldl_changeAt _ (fun i hi => List.mem_range.1 hi) stored
  have hlast : new.lines.size ≤ (stored.merge new).lines.size := by
    cases hn : new.lines.size with
    | zero => exact Nat.zero_le _
    | succ k =>
      -- The last line of the dump is no gap, so it is there after the merge.
      have hshown := hnew k hn
      have hmerged : (stored.merge new).line? k ≠ none := by
        rw [line?_merge]
        exact fun hnone => hshown (revised_eq_none_iff.1 hnone).2
      obtain ⟨line, hline⟩ := Option.ne_none_iff_exists'.1 hmerged
      exact lt_size_of_line? hline
  omega

end FileSnapshot

end BytecodeCoverage
