-- SUMMARY: What a run of parses has stored, told from what its texts show.
import BytecodeCoverage.Proofs.Engine.Commit
import BytecodeCoverage.Proofs.Store.Dump

/-!
# Accumulation

A store that some dumps went into knows the files that one of them shows, and of each line what
the last dump with the line reports. One dump more keeps that true. So it holds after any number of
parses, where a text shows as much as `shownBy` says.
-/

namespace BytecodeCoverage

open LineSnapshot (report)

/-! ## What dumps show together -/

/-- What a dump shows of a line. -/
def shownLine (dump : List FileSnapshot) (file : String) (i : Nat) : Option LineSnapshot :=
  (Store.snapshotOf dump file).bind (·.line? i)

/-- What the last of the dumps that show a line shows of it. -/
def lastShown (dumps : List (List FileSnapshot)) (file : String) (i : Nat) : Option LineSnapshot :=
  dumps.reverse.findSome? (shownLine · file i)

/-- The length of the longest snapshot of a file. -/
def longest (dumps : List (List FileSnapshot)) (file : String) : Nat :=
  (dumps.map fun dump => Store.length (Store.snapshotOf dump file)).foldl max 0

variable {dumps : List (List FileSnapshot)} {dump : List FileSnapshot}

theorem lastShown_append (file : String) (i : Nat) :
    lastShown (dumps ++ [dump]) file i =
      match shownLine dump file i with
      | some line => some line
      | none => lastShown dumps file i := by
  rw [lastShown, List.reverse_append, List.reverse_singleton, List.singleton_append,
    List.findSome?_cons]
  cases shownLine dump file i with
  | none => rfl
  | some line => rfl

theorem lastShown_eq_none_iff {file : String} {i : Nat} :
    lastShown dumps file i = none ↔ ∀ dump ∈ dumps, shownLine dump file i = none := by
  simp [lastShown]

theorem longest_append (file : String) :
    longest (dumps ++ [dump]) file =
      max (longest dumps file) (Store.length (Store.snapshotOf dump file)) := by
  simp only [longest, List.map_append, List.foldl_append]
  rfl

/-! ## The invariant -/

theorem wellFormed_shownBy (g : Grammar) (text : String) : WellFormed (Engine.shownBy g text) := by
  unfold Engine.shownBy
  split
  · rename_i dump hdump
    exact wellFormed_of_dumpOf hdump
  · exact ⟨List.nodup_nil, nofun, nofun⟩

theorem ascending_shownBy (g : Grammar) (text : String) :
    ((Engine.shownBy g text).map (·.filename)).Pairwise (· < ·) := by
  unfold Engine.shownBy
  split
  · rename_i dump hdump
    exact ascending_of_dumpOf hdump
  · exact List.Pairwise.nil

namespace Store

/-- The store is what the dumps have made it. -/
structure Accumulates (s : Store) (dumps : List (List FileSnapshot)) : Prop where
  known : ∀ file, s.find? file ≠ none ↔ ∃ dump ∈ dumps, file ∈ dump.map (·.filename)
  named : ∀ file stored, s.find? file = some stored → stored.filename = file
  lines : ∀ file i, (s.line? file i).map report = (lastShown dumps file i).map report
  length : ∀ file, length (s.find? file) = longest dumps file
  totals : ∀ file stored, s.find? file = some stored → stored.totals = stored.recount

theorem accumulates_empty : Accumulates {} [] := by
  have hnone : ∀ file, find? {} file = none := fun file => Std.TreeMap.getElem?_emptyc
  refine ⟨?_, ?_, ?_, ?_, ?_⟩
  · intro file
    simp [hnone]
  · intro file stored h
    rw [hnone] at h
    cases h
  · intro file i
    rw [line?, hnone]
    rfl
  · intro file
    rw [hnone]
    rfl
  · intro file stored h
    rw [hnone] at h
    cases h

namespace Accumulates

variable {s : Store}

theorem known_absorb (h : s.Accumulates dumps) (hdump : WellFormed dump) (file : String) :
    (s.absorb dump).find? file ≠ none ↔
      ∃ d ∈ dumps ++ [dump], file ∈ d.map (·.filename) := by
  rw [find?_absorb hdump.nodup]
  cases hnew : snapshotOf dump file with
  | none =>
    have hfile := snapshotOf_eq_none_iff.1 hnew
    simp only [h.known file, List.mem_append, List.mem_singleton]
    constructor
    · rintro ⟨d, hd, hmem⟩
      exact ⟨d, .inl hd, hmem⟩
    · rintro ⟨d, hd | rfl, hmem⟩
      · exact ⟨d, hd, hmem⟩
      · exact absurd hmem hfile
  | some new =>
    obtain ⟨hmem, hname⟩ := mem_of_snapshotOf hnew
    refine iff_of_true nofun ⟨dump, by simp, ?_⟩
    exact List.mem_map.2 ⟨new, hmem, hname⟩

theorem named_absorb (h : s.Accumulates dumps) (hdump : WellFormed dump) {file : String}
    {stored : FileSnapshot} (hstored : (s.absorb dump).find? file = some stored) :
    stored.filename = file := by
  rw [find?_absorb hdump.nodup] at hstored
  cases hnew : snapshotOf dump file with
  | none =>
    rw [hnew] at hstored
    exact h.named file stored hstored
  | some new =>
    rw [hnew] at hstored
    cases hstored
    obtain ⟨-, hname⟩ := mem_of_snapshotOf hnew
    refine (merged_filename ?_).trans hname
    intro kept hkept
    exact (h.named file kept hkept).trans hname.symm

theorem lines_absorb (h : s.Accumulates dumps) (hdump : WellFormed dump) (file : String)
    (i : Nat) :
    ((s.absorb dump).line? file i).map report =
      (lastShown (dumps ++ [dump]) file i).map report := by
  have hline := line?_absorb hdump.nodup s file i
  rw [hline, lastShown_append]
  change (LineSnapshot.revised _ (shownLine dump file i)).map report = _
  cases shownLine dump file i with
  | none =>
    rw [LineSnapshot.revised_none]
    exact h.lines file i
  | some line => exact LineSnapshot.revised_some _ line

theorem totals_absorb (h : s.Accumulates dumps) (hdump : WellFormed dump) {file : String}
    {stored : FileSnapshot} (hstored : (s.absorb dump).find? file = some stored) :
    stored.totals = stored.recount := by
  rw [find?_absorb hdump.nodup] at hstored
  cases hnew : snapshotOf dump file with
  | none =>
    rw [hnew] at hstored
    exact h.totals file stored hstored
  | some new =>
    rw [hnew] at hstored
    cases hstored
    exact totals_merged (hdump.totals new (mem_of_snapshotOf hnew).1)

theorem absorb (h : s.Accumulates dumps) (hdump : WellFormed dump) :
    (s.absorb dump).Accumulates (dumps ++ [dump]) := by
  refine ⟨h.known_absorb hdump, fun file stored => h.named_absorb hdump, h.lines_absorb hdump, ?_,
    fun file stored => h.totals_absorb hdump⟩
  intro file
  rw [length_absorb hdump.nodup hdump.tight, longest_append, h.length file]

end Accumulates

/-! ## The order of the files -/

theorem mem_filenames {s : Store} {file : String} : file ∈ s.filenames ↔ s.find? file ≠ none := by
  rw [filenames, Std.TreeMap.mem_keys, Std.TreeMap.mem_iff_isSome_getElem?, find?,
    Option.isSome_iff_ne_none]

theorem filenames_ascending (s : Store) : s.filenames.Pairwise (· < ·) := keys_ascending s.files

theorem names_snapshots {s : Store}
    (hnamed : ∀ file stored, s.find? file = some stored → stored.filename = file) :
    s.snapshots.map (·.filename) = s.filenames := by
  rw [snapshots, filenames, List.map_map, ← Std.TreeMap.map_fst_toList_eq_keys]
  refine List.map_congr_left ?_
  rintro ⟨file, stored⟩ hmem
  exact hnamed file stored (Std.TreeMap.mem_toList_iff_getElem?_eq_some.1 hmem)

end Store

/-! ## Runs -/

namespace Engine

variable {σ : Type} {g : Grammar} {behaviour : Behaviour σ}

/-- Parse one text after the other, whatever comes of each. -/
def parseAll (g : Grammar) (behaviour : Behaviour σ) (e : Engine σ) (texts : List String) :
    Engine σ :=
  texts.foldl (fun e text => (e.parse g behaviour text).1) e

/-- By induction on the texts: a parse absorbs what its text shows and leaves no parse running. -/
theorem accumulates_parseAll (hquiet : behaviour.Quiet) (texts : List String) {e : Engine σ}
    (he : e.parsing = false) {dumps : List (List FileSnapshot)} (h : e.store.Accumulates dumps) :
    (parseAll g behaviour e texts).store.Accumulates (dumps ++ texts.map (shownBy g)) := by
  induction texts generalizing e dumps with
  | nil =>
    rw [List.map_nil, List.append_nil]
    exact h
  | cons text rest ih =>
    obtain ⟨hstore, hparsing⟩ := parse_of_quiet g text hquiet he
    have hnext : (e.parse g behaviour text).1.store.Accumulates (dumps ++ [shownBy g text]) := by
      rw [hstore]
      exact h.absorb (wellFormed_shownBy g text)
    have hrest := ih hparsing hnext
    rw [List.append_assoc] at hrest
    exact hrest

/-- What is stored after any run of parses. A text that cannot be read shows nothing, and one with
a file that there is no room for shows the files before that one. -/
theorem parseAll_accumulates (hquiet : behaviour.Quiet) (registry : Registry) (memory : σ)
    (texts : List String) :
    let store := (parseAll g behaviour { registry, memory } texts).store
    let dumps := texts.map (shownBy g)
    (∀ file, file ∈ store.filenames ↔ ∃ dump ∈ dumps, file ∈ dump.map (·.filename)) ∧
      (∀ file i, store.line? file i = none ↔ ∀ dump ∈ dumps, shownLine dump file i = none) ∧
      (∀ file i, (store.line? file i).map report = (lastShown dumps file i).map report) ∧
      (∀ file stored, store.find? file = some stored →
        stored.lines.size = longest dumps file ∧ stored.totals = stored.recount) ∧
      store.snapshots.map (·.filename) = store.filenames ∧ store.filenames.Pairwise (· < ·) := by
  intro store dumps
  have h : store.Accumulates dumps :=
    accumulates_parseAll (e := { registry, memory }) hquiet texts rfl Store.accumulates_empty
  refine ⟨?_, ?_, h.lines, ?_, Store.names_snapshots h.named, Store.filenames_ascending store⟩
  · intro file
    rw [Store.mem_filenames]
    exact h.known file
  · intro file i
    rw [← lastShown_eq_none_iff, ← Option.map_eq_none_iff, h.lines, Option.map_eq_none_iff]
  · intro file stored hstored
    refine ⟨?_, h.totals file stored hstored⟩
    have hlength := h.length file
    rw [hstored] at hlength
    exact hlength

/-! ## Two runs -/

/-- Every observer collects all events. -/
def listening : Behaviour (List Event) :=
  fun _ _ => some fun event _ _ => .remember (event :: ·) .done

theorem quiet_listening : listening.Quiet := by
  intro observer kind handler hhandler event store memory
  cases hhandler
  trivial

/-- Two dumps of one script, of which the second has a higher count. -/
def recounted : List String :=
  ["--- SCRIPT a.js:1 ---\n0:5/0/0 x 1 stop\n--- END SCRIPT ---",
    "--- SCRIPT a.js:1 ---\n0:7/0/0 x 1 stop\n--- END SCRIPT ---"]

theorem parseAll_recounted :
    listening.Quiet ∧
      ((parseAll {} listening { registry := [0], memory := [] } recounted).store.line?
        "a.js" 0).map report = some (.full, [7]) := by
  refine ⟨quiet_listening, ?_⟩
  obtain ⟨-, -, hlines, -⟩ := parseAll_accumulates (g := {}) quiet_listening [0] [] recounted
  rw [hlines]
  decide +kernel

/-- A dump of two files, where a line of the second is too far down for any snapshot. -/
def overflowing : String :=
  "--- SCRIPT a.js:1 ---\n0:1/0/0 x 1 stop\n--- END SCRIPT ---\n" ++
    "--- SCRIPT b.js:1 ---\n0:1/0/0 x 10000000000000000000 stop\n--- END SCRIPT ---"

/-- The parse of the text fails, and yet the first of its files is stored. -/
theorem parseAll_overflowing :
    (parse {} listening { registry := [0], memory := [] } overflowing).2.isOk = false ∧
      (parseAll {} listening { registry := [0], memory := [] } [overflowing]).store.filenames =
        ["a.js"] := by
  decide +kernel

end Engine

end BytecodeCoverage
