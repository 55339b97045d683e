-- SUMMARY: The counts of a line, number by number, from the instructions it had when it was asked.
import BytecodeCoverage.Proofs.Coverage.Classification
import Mathlib

/-!
# Counts

The counts of a line leave out what merely follows an instruction that falls through. All that is
lost so are repetitions, and zeros that are not exposed: no positive count is, however long the
chain that it runs along. The counts are what the line tells, sorted and each once, and the answer
that is given for a line of which all ran alike is no other.
-/

namespace BytecodeCoverage

/-- Putting numbers at their place one by one sorts them and drops repetitions. -/
theorem ascending_eq_sort (ns : List Int) : ascending ns = ns.toFinset.sort (· ≤ ·) := by
  have hsorted : (ascending ns).Pairwise (· < ·) := pairwise_ascending ns
  have hnodup : (ascending ns).Nodup := hsorted.imp fun h => Int.ne_of_lt h
  have hmembers : (ascending ns).toFinset = ns.toFinset := by
    ext n
    rw [List.mem_toFinset, List.mem_toFinset, mem_ascending]
  rw [← hmembers]
  exact ((List.toFinset_sort (· ≤ ·) hnodup).2 (hsorted.imp fun h => Int.le_of_lt h)).symm

theorem Tells.mem_iff {code : List Instruction} {ns : List Int} (h : Tells code ns) (n : Int) :
    n ∈ ns ↔ n = -1 ∧ (∃ ins ∈ code, ins.reachable = false) ∨ n = 0 ∧ (∃ i, Exposed code i) ∨
      0 < n ∧ ∃ ins ∈ code, ins.reachable ∧ ins.count = n := by
  constructor
  · intro hn
    have hlow : -1 ≤ n := h.bound n hn
    rcases (by omega : n = -1 ∨ n = 0 ∨ 0 < n) with rfl | rfl | hpos
    · exact .inl ⟨rfl, h.unreachable.1 hn⟩
    · exact .inr (.inl ⟨rfl, h.zero.1 hn⟩)
    · exact .inr (.inr ⟨hpos, (h.positive n hpos).1 hn⟩)
  · rintro (⟨rfl, hunreachable⟩ | ⟨rfl, hexposed⟩ | ⟨hpos, hcounted⟩)
    · exact h.unreachable.2 hunreachable
    · exact h.zero.2 hexposed
    · exact (h.positive n hpos).2 hcounted

namespace Line

variable {number : Int} {haltMnemonic : String} {steps : List Step}

theorem knownCode_prefix_code : knownCode number haltMnemonic steps <+:
    (ofSteps number haltMnemonic steps).code := by
  rw [ofSteps_eq_foldl number haltMnemonic steps]
  exact code_prefix_foldl_step _ _

theorem knownCode_eq_code (h : ∀ key ins, .add key ins ∉ steps.dropWhile (· ≠ .ask)) :
    knownCode number haltMnemonic steps = (ofSteps number haltMnemonic steps).code := by
  rw [ofSteps_eq_foldl number haltMnemonic steps]
  exact (code_foldl_step_of_not_add h _).symm

/-- The counts of a line after any steps ascend, and the instructions that it had when it was first
asked say which they are. An idle line has none. Any other has -1 for code that control cannot
reach, 0 where that is exposed, and each positive count of code that control reaches. These are
the numbers that the line tells, sorted and each once. The instructions are the first of the line,
and all of them if none was added after it was asked. -/
theorem mem_counts_ofSteps_iff (hsound : ∀ ins ∈ knownCode number haltMnemonic steps, ins.Sound) :
    let code := knownCode number haltMnemonic steps
    let counts := (ofSteps number haltMnemonic steps).counts
    counts.Pairwise (· < ·) ∧
      (IsIdle haltMnemonic code → counts = []) ∧
      (¬ IsIdle haltMnemonic code →
        (∀ n, n ∈ counts ↔
          n = -1 ∧ (∃ ins ∈ code, ins.reachable = false) ∨ n = 0 ∧ (∃ i, Exposed code i) ∨
            0 < n ∧ ∃ ins ∈ code, ins.reachable ∧ ins.count = n) ∧
        counts = (told code).toFinset.sort (· ≤ ·)) ∧
      code <+: (ofSteps number haltMnemonic steps).code ∧
      ((∀ key ins, .add key ins ∉ steps.dropWhile (· ≠ .ask)) →
        code = (ofSteps number haltMnemonic steps).code) := by
  intro code counts
  have hcounts : counts = distinctCounts haltMnemonic code :=
    counts_ofSteps number haltMnemonic steps
  refine ⟨?_, ?_, ?_, knownCode_prefix_code, knownCode_eq_code⟩
  · rw [hcounts]
    exact pairwise_distinctCounts hsound
  · intro hidle
    rw [hcounts]
    exact distinctCounts_of_idle hidle
  · intro hidle
    rw [hcounts]
    refine ⟨(tells_distinctCounts hsound hidle).mem_iff, ?_⟩
    rw [distinctCounts_of_not_idle hsound hidle, ascending_eq_sort]

/-- A run of code: the count of its first, again, and nothing, where the last is not exposed. -/
def chain : List Step :=
  [.add "a.js:1:0" { branch with text := "pop", fallsThrough := true },
    .add "a.js:1:1" { branch with text := "pop", address := 1, fallsThrough := true },
    .add "a.js:1:2" { untaken with address := 2 }]

/-- The run, then code that control cannot reach, and behind it code that did not run. -/
def chainCut : List Step :=
  chain ++ [.add "a.js:1:3" { untaken with reachable := false, fallsThrough := false },
    .add "a.js:1:4" { untaken with address := 4 }, .ask]

example : (ofSteps 1 "stop" chain).counts = [5] := by decide

theorem mem_counts_chainCut :
    (∀ ins ∈ knownCode 1 "stop" chainCut, ins.Sound) ∧
      ¬ IsIdle "stop" (knownCode 1 "stop" chainCut) ∧
      0 ∈ (ofSteps 1 "stop" chainCut).counts ∧ 5 ∈ (ofSteps 1 "stop" chainCut).counts := by
  have hsound : ∀ ins ∈ knownCode 1 "stop" chainCut, ins.Sound := by decide
  have hbusy : ¬ IsIdle "stop" (knownCode 1 "stop" chainCut) := by
    have hlength : (knownCode 1 "stop" chainCut).length = 5 := by decide
    rintro (hnil | ⟨ins, hone, -⟩)
    · rw [hnil] at hlength
      cases hlength
    · rw [hone] at hlength
      cases hlength
  have hexposed : ∃ i, Exposed (knownCode 1 "stop" chainCut) i := by
    refine ⟨4, { untaken with address := 4 }, by decide, rfl, rfl, ?_⟩
    rintro p ⟨⟩
    decide
  obtain ⟨hmem, -⟩ := (mem_counts_ofSteps_iff hsound).2.2.1 hbusy
  refine ⟨hsound, hbusy, (hmem 0).2 (.inr (.inl ⟨rfl, hexposed⟩)), (hmem 5).2 (.inr (.inr ?_))⟩
  exact ⟨by decide, _, .head _, rfl, rfl⟩

/-- Of the line that was asked between, an instruction is exposed that did not run, and the counts
are without zero. -/
theorem mem_counts_askedBetween :
    (ofSteps 1 "stop" askedBetween).code = [branch, untaken] ∧
      (∀ ins ∈ [branch, untaken], ins.Sound) ∧ ¬ IsIdle "stop" [branch, untaken] ∧
      (∃ i, Exposed [branch, untaken] i) ∧ 0 ∉ (ofSteps 1 "stop" askedBetween).counts := by
  refine ⟨by decide, by decide, ?_, ⟨1, exposed_untaken⟩, by decide⟩
  rintro (hnil | ⟨ins, hone, -⟩)
  · cases hnil
  · cases hone

end Line

end BytecodeCoverage
