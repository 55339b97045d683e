-- SUMMARY: The class of a line, told from the instructions that were on it when it was first asked.
import BytecodeCoverage.Proofs.Coverage.Readings
import Mathlib.Logic.ExistsUnique

/-!
# Classification

A line is in exactly one class, and its instructions alone say in which. They are those that it had
when it was first asked for its counts: the first answer stands, whatever is registered after it.
-/

namespace BytecodeCoverage

namespace CoverageClass

/-- What the instructions of a line in a class are like. -/
def Describes (haltMnemonic : String) (code : List Instruction) : CoverageClass → Prop
  | .insignificant => IsIdle haltMnemonic code
  | .dead => ¬ IsIdle haltMnemonic code ∧ ∀ ins ∈ code, ins.reachable = false
  | .full => RanSome code ∧ ¬ ∃ i, Exposed code i
  | .missed => (∃ i, Exposed code i) ∧ ¬ RanSome code ∧ ¬ ∃ ins ∈ code, ins.reachable = false
  | .mixed => (∃ i, Exposed code i) ∧ (RanSome code ∨ ∃ ins ∈ code, ins.reachable = false)

/-! ## Ascending counts -/

section Counts

variable {ns : List Int}

theorem eq_singleton_of_ascending {n : Int} (hns : ns.Pairwise (· < ·)) (hn : n ∈ ns)
    (h : ∀ m ∈ ns, m = n) : ns = [n] := by
  match ns with
  | [] => cases hn
  | [m] => rw [h m (.head _)]
  | k :: m :: rest =>
    have hlt : k < m := (List.pairwise_cons.1 hns).1 m (.head _)
    have hk := h k (.head _)
    have hm := h m (.tail _ (.head _))
    omega

theorem ofCounts_eq_full (hns : ns.Pairwise (· < ·)) (hbound : ∀ n ∈ ns, -1 ≤ n)
    (hzero : 0 ∉ ns) (hpos : ∃ n ∈ ns, 0 < n) : ofCounts ns = .full := by
  obtain ⟨n, hn, hpos⟩ := hpos
  match ns with
  | [] => cases hn
  | [m] =>
    rw [List.mem_singleton.1 hn] at hpos
    exact if_pos hpos
  | k :: m :: rest =>
    have hlt : k < m := (List.pairwise_cons.1 hns).1 m (.head _)
    have hk := hbound k (.head _)
    have hk0 : k ≠ 0 := fun h => hzero (h ▸ .head _)
    have hm0 : m ≠ 0 := fun h => hzero (h ▸ .tail _ (.head _))
    by_cases hfirst : 0 < k
    · exact if_pos hfirst
    · -- The first is the mark of unreachable code, so the second is a count.
      have hmark : k = unreachableCount := by
        change k = -1
        omega
      rw [ofCounts, if_neg hfirst, if_pos ⟨hmark, by omega⟩]

theorem ofCounts_eq_mixed (hns : ns.Pairwise (· < ·)) (hzero : 0 ∈ ns)
    (hother : ∃ n ∈ ns, n ≠ 0) : ofCounts ns = .mixed := by
  obtain ⟨n, hn, hother⟩ := hother
  match ns with
  | [] => cases hn
  | [m] =>
    rw [List.mem_singleton.1 hn] at hother
    exact absurd (List.mem_singleton.1 hzero).symm hother
  | k :: m :: rest =>
    obtain ⟨hfirst, hsecond⟩ := List.pairwise_cons.1 hns
    have hlt : k < m := hfirst m (.head _)
    -- Zero is the first or the second, so neither makes the line full.
    have hplace : k = 0 ∨ m ≤ 0 := by
      rcases List.mem_cons.1 hzero with h | h
      · exact .inl h.symm
      · rcases List.mem_cons.1 h with h | h
        · exact .inr (Int.le_of_eq h.symm)
        · exact .inr (Int.le_of_lt ((List.pairwise_cons.1 hsecond).1 0 h))
    have hmark : ¬ (k = unreachableCount ∧ 0 < m) := by
      rintro ⟨hk, hm⟩
      rw [unreachableCount] at hk
      omega
    rw [ofCounts, if_neg (by omega), if_neg hmark]

end Counts

/-! ## The five classes -/

variable {haltMnemonic : String} {code : List Instruction}

/-- Some class describes the instructions. -/
theorem exists_describes (hsound : ∀ ins ∈ code, ins.Sound) :
    ∃ c, Describes haltMnemonic code c := by
  by_cases hexposed : ∃ i, Exposed code i
  · by_cases hran : RanSome code
    · exact ⟨.mixed, hexposed, .inl hran⟩
    · by_cases hunreachable : ∃ ins ∈ code, ins.reachable = false
      · exact ⟨.mixed, hexposed, .inr hunreachable⟩
      · exact ⟨.missed, hexposed, hran, hunreachable⟩
  · by_cases hran : RanSome code
    · exact ⟨.full, hran, hexposed⟩
    · by_cases hidle : IsIdle haltMnemonic code
      · exact ⟨.insignificant, hidle⟩
      · refine ⟨.dead, hidle, ?_⟩
        intro ins hins
        rw [← Bool.not_eq_true]
        intro hr
        have hsome : (∃ i, Exposed code i) ∨ RanSome code :=
          exposed_or_ranSome hsound nofun ⟨ins, hins, hr⟩
        exact hsome.elim hexposed hran

/-- A class that describes the instructions is the one that their counts give. -/
theorem ofCounts_of_describes (hsound : ∀ ins ∈ code, ins.Sound) {c : CoverageClass}
    (h : Describes haltMnemonic code c) : ofCounts (distinctCounts haltMnemonic code) = c := by
  have hns : (distinctCounts haltMnemonic code).Pairwise (· < ·) := pairwise_distinctCounts hsound
  have htells : ((∃ i, Exposed code i) ∨ RanSome code) →
      Tells code (distinctCounts haltMnemonic code) := by
    intro hsome
    refine tells_distinctCounts hsound fun hidle => ?_
    have hnone := not_reachable_of_idle hidle
    exact hsome.elim (not_exposed_of_unreachable hnone) (not_ranSome_of_unreachable hnone)
  cases c with
  | insignificant => rw [distinctCounts_of_idle h, ofCounts]
  | dead =>
    obtain ⟨hidle, hnone⟩ := h
    have ht := tells_distinctCounts hsound hidle
    have hcode : code ≠ [] := fun hcode => hidle (.inl hcode)
    obtain ⟨ins, hins⟩ := List.exists_mem_of_ne_nil code hcode
    have hmark : -1 ∈ distinctCounts haltMnemonic code :=
      ht.unreachable.2 ⟨ins, hins, hnone ins hins⟩
    have hall : ∀ n ∈ distinctCounts haltMnemonic code, n = -1 := by
      intro n hn
      have hlow := ht.bound n hn
      have hzero : n ≠ 0 := by
        rintro rfl
        exact not_exposed_of_unreachable hnone (ht.zero.1 hn)
      have hpos : ¬ 0 < n := by
        intro hpos
        obtain ⟨other, hother, hr, rfl⟩ := (ht.positive n hpos).1 hn
        exact not_ranSome_of_unreachable hnone ⟨other, hother, hr, hpos⟩
      omega
    rw [eq_singleton_of_ascending hns hmark hall]
    rfl
  | full =>
    obtain ⟨hran, hexposed⟩ := h
    have ht := htells (.inr hran)
    obtain ⟨ins, hins, hr, hpos⟩ := hran
    exact ofCounts_eq_full hns ht.bound (fun hzero => hexposed (ht.zero.1 hzero))
      ⟨ins.count, (ht.positive _ hpos).2 ⟨ins, hins, hr, rfl⟩, hpos⟩
  | missed =>
    obtain ⟨hexposed, hran, hunreachable⟩ := h
    have ht := htells (.inl hexposed)
    have hall : ∀ n ∈ distinctCounts haltMnemonic code, n = 0 := by
      intro n hn
      have hlow := ht.bound n hn
      have hmark : n ≠ -1 := by
        rintro rfl
        exact hunreachable (ht.unreachable.1 hn)
      have hpos : ¬ 0 < n := by
        intro hpos
        obtain ⟨ins, hins, hr, rfl⟩ := (ht.positive n hpos).1 hn
        exact hran ⟨ins, hins, hr, hpos⟩
      omega
    rw [eq_singleton_of_ascending hns (ht.zero.2 hexposed) hall]
    rfl
  | mixed =>
    obtain ⟨hexposed, hother⟩ := h
    have ht := htells (.inl hexposed)
    refine ofCounts_eq_mixed hns (ht.zero.2 hexposed) ?_
    rcases hother with ⟨ins, hins, hr, hpos⟩ | hunreachable
    · exact ⟨ins.count, (ht.positive _ hpos).2 ⟨ins, hins, hr, rfl⟩, by omega⟩
    · exact ⟨-1, ht.unreachable.2 hunreachable, by decide⟩

theorem ofCounts_eq_iff (hsound : ∀ ins ∈ code, ins.Sound) {c : CoverageClass} :
    ofCounts (distinctCounts haltMnemonic code) = c ↔ Describes haltMnemonic code c := by
  refine ⟨?_, ofCounts_of_describes hsound⟩
  rintro rfl
  obtain ⟨c, hc⟩ : ∃ c, Describes haltMnemonic code c := exists_describes hsound
  exact ofCounts_of_describes hsound hc ▸ hc

end CoverageClass

/-! ## Lines -/

namespace Line

/-- What can be done to a line. -/
inductive Step where
  | add (key : String) (ins : Instruction)
  /-- Say whether functions start and end on the line. -/
  | flag (starts ends : Bool)
  /-- Ask for the counts, or for the class, which asks for them. -/
  | ask
  deriving DecidableEq

def step (l : Line) : Step → Line
  | .add key ins => l.add key ins
  | .flag starts ends => { l with startsFunction := starts, endsFunction := ends }
  | .ask => l.settle

/-- A new line after some steps. -/
def ofSteps (number : Int) (haltMnemonic : String) (steps : List Step) : Line :=
  steps.foldl step { number, haltMnemonic }

/-- The instructions of the line when it is first asked, or after all steps if it never is. -/
def knownCode (number : Int) (haltMnemonic : String) (steps : List Step) : List Instruction :=
  (ofSteps number haltMnemonic (steps.takeWhile (· ≠ .ask))).code

theorem settled_add (l : Line) (key : String) (ins : Instruction) :
    (l.add key ins).settled = l.settled := by
  unfold add
  split
  · rfl
  · rfl

theorem haltMnemonic_add (l : Line) (key : String) (ins : Instruction) :
    (l.add key ins).haltMnemonic = l.haltMnemonic := by
  unfold add
  split
  · rfl
  · rfl

theorem code_prefix_add (l : Line) (key : String) (ins : Instruction) :
    l.code <+: (l.add key ins).code := by
  unfold add
  split
  · exact List.prefix_rfl
  · simp [code]

theorem counts_eq_of_settled {l : Line} {ns : List Int} (h : l.settled = some ns) :
    l.counts = ns := by
  rw [counts, h, Option.getD_some]

/-- The first answer stands. -/
theorem settled_step {l : Line} {ns : List Int} (h : l.settled = some ns) (st : Step) :
    (l.step st).settled = some ns := by
  cases st with
  | add key ins => exact (settled_add l key ins).trans h
  | flag starts ends => exact h
  | ask => exact congrArg some (counts_eq_of_settled h)

theorem settled_foldl_step {l : Line} {ns : List Int} (h : l.settled = some ns)
    (steps : List Step) : (steps.foldl step l).settled = some ns := by
  induction steps generalizing l with
  | nil => exact h
  | cons st rest ih => exact ih (settled_step h st)

/-- By induction on the steps: a line that has not been asked stays so up to the first step that
asks it, and from there on its counts stand. -/
theorem counts_foldl_step {l : Line} (h : l.settled = none) (steps : List Step) :
    (steps.foldl step l).counts =
      distinctCounts l.haltMnemonic ((steps.takeWhile (· ≠ .ask)).foldl step l).code := by
  induction steps generalizing l with
  | nil => rw [List.foldl_nil, List.takeWhile_nil, List.foldl_nil, counts, h, Option.getD_none]
  | cons st rest ih =>
    cases st with
    | add key ins =>
      have hnext := ih ((settled_add l key ins).trans h)
      rw [haltMnemonic_add] at hnext
      exact hnext
    | flag starts ends => exact ih h
    | ask =>
      have hcounts : l.counts = distinctCounts l.haltMnemonic l.code := by
        rw [counts, h, Option.getD_none]
      exact (counts_eq_of_settled (settled_foldl_step rfl rest)).trans hcounts

theorem counts_ofSteps (number : Int) (haltMnemonic : String) (steps : List Step) :
    (ofSteps number haltMnemonic steps).counts =
      distinctCounts haltMnemonic (knownCode number haltMnemonic steps) :=
  counts_foldl_step rfl steps

theorem code_prefix_foldl_step (l : Line) (steps : List Step) :
    l.code <+: (steps.foldl step l).code := by
  induction steps generalizing l with
  | nil => exact List.prefix_rfl
  | cons st rest ih =>
    have hstep : l.code <+: (l.step st).code := by
      cases st with
      | add key ins => exact code_prefix_add l key ins
      | flag starts ends => exact List.prefix_rfl
      | ask => exact List.prefix_rfl
    exact hstep.trans (ih _)

theorem code_foldl_step_of_not_add {steps : List Step} (h : ∀ key ins, .add key ins ∉ steps)
    (l : Line) : (steps.foldl step l).code = l.code := by
  induction steps generalizing l with
  | nil => rfl
  | cons st rest ih =>
    have hrest := ih (fun key ins hmem => h key ins (.tail _ hmem)) (l.step st)
    cases st with
    | add key ins => exact absurd (.head _) (h key ins)
    | flag starts ends => exact hrest
    | ask => exact hrest

theorem ofSteps_eq_foldl (number : Int) (haltMnemonic : String) (steps : List Step) :
    ofSteps number haltMnemonic steps =
      (steps.dropWhile (· ≠ .ask)).foldl step
        (ofSteps number haltMnemonic (steps.takeWhile (· ≠ .ask))) := by
  rw [ofSteps, ofSteps, ← List.foldl_append, List.takeWhile_append_dropWhile]

/-- The class of a line after any steps, told from the instructions that it had when it was first
asked. Those are its first ones, and all of them if none was added after that. -/
theorem coverage_ofSteps_eq_iff {number : Int} {haltMnemonic : String} {steps : List Step}
    (hsound : ∀ ins ∈ knownCode number haltMnemonic steps, ins.Sound) :
    (∀ c, (ofSteps number haltMnemonic steps).coverage = c ↔
      c.Describes haltMnemonic (knownCode number haltMnemonic steps)) ∧
    (∃! c : CoverageClass, c.Describes haltMnemonic (knownCode number haltMnemonic steps)) ∧
    knownCode number haltMnemonic steps <+: (ofSteps number haltMnemonic steps).code ∧
    ((∀ key ins, .add key ins ∉ steps.dropWhile (· ≠ .ask)) →
      knownCode number haltMnemonic steps = (ofSteps number haltMnemonic steps).code) := by
  have hclass : ∀ c, (ofSteps number haltMnemonic steps).coverage = c ↔
      c.Describes haltMnemonic (knownCode number haltMnemonic steps) := by
    intro c
    rw [coverage, counts_ofSteps]
    exact CoverageClass.ofCounts_eq_iff hsound
  refine ⟨hclass, ⟨_, (hclass _).1 rfl, fun c hc => ((hclass c).2 hc).symm⟩, ?_, ?_⟩
  · rw [ofSteps_eq_foldl number haltMnemonic steps]
    exact code_prefix_foldl_step _ _
  · intro hlate
    rw [ofSteps_eq_foldl number haltMnemonic steps]
    exact (code_foldl_step_of_not_add hlate _).symm

/-- A branch that ran. -/
def branch : Instruction :=
  { address := 0, sourceLine := 1, text := "ifeq 3", count := 5, reachable := true }

/-- What follows the branch, which did not run. -/
def untaken : Instruction :=
  { address := 3, sourceLine := 1, text := "pop", reachable := true, fallsThrough := true }

/-- A line with both, which is asked when both are there. -/
def askedLast : List Step := [.add "a.js:1:0" branch, .add "a.js:1:3" untaken, .ask]

/-- The same line, asked before the second is there. -/
def askedBetween : List Step := [.add "a.js:1:0" branch, .ask, .add "a.js:1:3" untaken]

theorem exposed_untaken : Exposed [branch, untaken] 1 := by
  refine ⟨untaken, rfl, rfl, rfl, ?_⟩
  rintro p ⟨⟩
  decide

theorem coverage_askedLast :
    (∀ ins ∈ knownCode 1 "stop" askedLast, ins.Sound) ∧
      (ofSteps 1 "stop" askedLast).coverage = .mixed := by
  have hsound : ∀ ins ∈ knownCode 1 "stop" askedLast, ins.Sound := by decide
  have hbranch : RanSome (knownCode 1 "stop" askedLast) := ⟨branch, .head _, rfl, by decide⟩
  exact ⟨hsound, ((coverage_ofSteps_eq_iff hsound).1 .mixed).2
    ⟨⟨1, exposed_untaken⟩, .inl hbranch⟩⟩

/-- Of the line that was asked between, the instructions say that it ran in part, and the line says
that it ran in full. -/
theorem coverage_askedBetween :
    (ofSteps 1 "stop" askedBetween).code = [branch, untaken] ∧
      (∀ ins ∈ [branch, untaken], ins.Sound) ∧
      CoverageClass.Describes "stop" [branch, untaken] .mixed ∧
      (ofSteps 1 "stop" askedBetween).coverage = .full := by
  refine ⟨by decide, by decide, ⟨⟨1, exposed_untaken⟩, ?_⟩, by decide⟩
  exact .inl ⟨branch, .head _, rfl, by decide⟩

end Line

end BytecodeCoverage
