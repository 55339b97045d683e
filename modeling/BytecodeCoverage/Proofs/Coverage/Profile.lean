-- SUMMARY: The order of magnitude that a line is profiled with is that of its hottest instruction.
import BytecodeCoverage.Proofs.Coverage.Exposure
import Mathlib.Analysis.SpecialFunctions.Log.Base

/-!
# Profiles

A line is profiled by the last of its counts. What its counts leave out are repetitions and zeros,
and what they put in beside them stands for code that control cannot reach. So the last of them is
the highest count of code that control reaches, if that is positive, and none is positive otherwise.

The order of magnitude of a count is its logarithm to base ten without the fraction, and nine at the
most.
-/

namespace BytecodeCoverage

/-! ## Orders of magnitude -/

namespace File

/-- The powers that a count has reached are the first ones. -/
theorem magnitude_eq_min (count : Int) : magnitude count = min (Nat.log 10 count.toNat) 9 := by
  have hreached : ∀ k, (Nat.pow 10 (k + 1) : Int) ≤ count ↔ k < Nat.log 10 count.toNat := by
    intro k
    rw [← Nat.succ_le_iff]
    by_cases hcount : count.toNat = 0
    · have hpow : 0 < Nat.pow 10 (k + 1) := Nat.pow_pos (by decide)
      rw [hcount, Nat.log_zero_right]
      omega
    · rw [Nat.le_log_iff_pow_le (by decide) hcount, Int.le_toNat (by omega)]
      rfl
  have hcut : ∀ k ∈ List.range 9, decide ((Nat.pow 10 (k + 1) : Int) ≤ count) =
      decide (k < min (Nat.log 10 count.toNat) 9) := by
    intro k hk
    have hlt : k < 9 := List.mem_range.1 hk
    rw [decide_eq_decide, hreached]
    omega
  have hlength : ∀ m ≤ 9, ((List.range 9).filter (· < m)).length = m := by decide
  rw [magnitude, List.filter_congr hcut]
  exact hlength _ (Nat.min_le_right _ _)

theorem magnitude_of_nonpos {count : Int} (h : count ≤ 0) : magnitude count = 0 := by
  rw [magnitude_eq_min, Int.toNat_of_nonpos h]
  rfl

theorem magnitude_mono {count count' : Int} (h : count ≤ count') :
    magnitude count ≤ magnitude count' := by
  rw [magnitude_eq_min, magnitude_eq_min]
  exact min_le_min_right 9 (Nat.log_mono_right (Int.toNat_le_toNat h))

/-- The magnitude of a positive count is the one power of ten that it has reached and whose next it
has not, where nothing comes after the ninth. -/
theorem magnitude_eq_iff {count : Int} (h : 0 < count) (b : Nat) :
    magnitude count = b ↔ b ≤ 9 ∧ 10 ^ b ≤ count ∧ (b = 9 ∨ count < 10 ^ (b + 1)) := by
  obtain ⟨n, rfl⟩ := Int.eq_ofNat_of_zero_le (Int.le_of_lt h)
  have hn : n ≠ 0 := by omega
  have hreached : (10 : Int) ^ b ≤ n ↔ b ≤ Nat.log 10 n := by
    rw [Nat.le_log_iff_pow_le (by decide) hn]
    exact_mod_cast Iff.rfl
  have hbelow : (n : Int) < 10 ^ (b + 1) ↔ Nat.log 10 n < b + 1 := by
    rw [Nat.log_lt_iff_lt_pow (by decide) hn]
    exact_mod_cast Iff.rfl
  rw [magnitude_eq_min, Int.toNat_natCast, hreached, hbelow]
  omega

theorem magnitude_eq_logb {count : Int} (h : 0 < count) :
    magnitude count = min ⌊Real.logb 10 count⌋₊ 9 := by
  obtain ⟨n, rfl⟩ := Int.eq_ofNat_of_zero_le (Int.le_of_lt h)
  have hfloor : ⌊Real.logb 10 n⌋₊ = Nat.log 10 n := Real.natFloor_logb_natCast 10 n
  rw [magnitude_eq_min, Int.toNat_natCast, Int.cast_natCast, hfloor]

end File

/-! ## The hottest instruction -/

section Hottest

variable {haltMnemonic : String} {code : List Instruction} {count : Int}

/-- The highest count of code that control reaches, if it reaches some. -/
def hottest? (code : List Instruction) : Option Int :=
  ((code.filter (·.reachable)).map (·.count)).max?

theorem hottest?_eq_none_iff : hottest? code = none ↔ ∀ ins ∈ code, ¬ ins.reachable := by
  simp [hottest?, List.max?_eq_none_iff]

theorem hottest?_eq_some_iff : hottest? code = some count ↔
    (∃ ins ∈ code, ins.reachable ∧ ins.count = count) ∧
      ∀ ins ∈ code, ins.reachable → ins.count ≤ count := by
  have hmem : ∀ n : Int, n ∈ (code.filter (·.reachable)).map (·.count) ↔
      ∃ ins ∈ code, ins.reachable ∧ ins.count = n := by
    intro n
    simp only [List.mem_map, List.mem_filter, and_assoc]
  rw [hottest?, List.max?_eq_some_iff, hmem]
  refine and_congr_right fun _ => ⟨fun hle ins hins hreach => ?_, fun hle n hn => ?_⟩
  · exact hle ins.count ((hmem _).2 ⟨ins, hins, hreach, rfl⟩)
  · obtain ⟨ins, hins, hreach, rfl⟩ := (hmem n).1 hn
    exact hle ins hins hreach

/-- The highest of ascending numbers is the last. -/
theorem getLast?_eq_some_of_le {ns : List Int} (hsorted : ns.Pairwise (· < ·)) (hmem : count ∈ ns)
    (hle : ∀ n ∈ ns, n ≤ count) : ns.getLast? = some count := by
  rcases List.eq_nil_or_concat ns with rfl | ⟨front, last, rfl⟩
  · cases hmem
  · rw [List.concat_eq_append] at hsorted hmem hle ⊢
    obtain ⟨-, -, hfront⟩ := List.pairwise_append.1 hsorted
    have hlast : last ≤ count := hle last (by simp)
    rw [List.getLast?_concat, Option.some.injEq]
    rcases List.mem_append.1 hmem with hmem | hmem
    · have hlt : count < last := hfront count hmem last (.head _)
      omega
    · exact (List.mem_singleton.1 hmem).symm

/-- A positive count that no other exceeds is the last that the line has. -/
theorem getLast?_distinctCounts_of_hottest (hsound : ∀ ins ∈ code, ins.Sound)
    (h : hottest? code = some count) (hpos : 0 < count) :
    (distinctCounts haltMnemonic code).getLast? = some count := by
  obtain ⟨⟨ins, hins, hreach, hcount⟩, hmax⟩ := hottest?_eq_some_iff.1 h
  have hbusy : ¬ IsIdle haltMnemonic code := by
    intro hidle
    rw [not_reachable_of_idle hidle ins hins] at hreach
    cases hreach
  refine getLast?_eq_some_of_le (pairwise_distinctCounts hsound) ?_ ?_
  · exact ((tells_distinctCounts hsound hbusy).positive count hpos).2 ⟨ins, hins, hreach, hcount⟩
  · intro n hn
    by_cases hle : n ≤ 0
    · omega
    · obtain ⟨other, hother, hreach', rfl⟩ := exists_of_mem_distinctCounts hsound hn (by omega)
      exact hmax other hother hreach'

/-- Where no count of code that control reaches is positive, neither is any of the line. -/
theorem getLast?_distinctCounts_nonpos (hsound : ∀ ins ∈ code, ins.Sound)
    (h : ∀ ins ∈ code, ins.reachable → ins.count ≤ 0) {n : Int}
    (hn : (distinctCounts haltMnemonic code).getLast? = some n) : n ≤ 0 := by
  by_contra hpos
  obtain ⟨ins, hins, hreach, rfl⟩ :=
    exists_of_mem_distinctCounts hsound (List.mem_of_getLast? hn) (by omega)
  exact hpos (h ins hins hreach)

/-- The magnitude of the last count is that of the hottest instruction. -/
theorem magnitude_getLast?_distinctCounts (hsound : ∀ ins ∈ code, ins.Sound) :
    ((distinctCounts haltMnemonic code).getLast?.map File.magnitude).getD 0 =
      File.magnitude ((hottest? code).getD 0) := by
  have hcold : (∀ ins ∈ code, ins.reachable → ins.count ≤ 0) →
      ((distinctCounts haltMnemonic code).getLast?.map File.magnitude).getD 0 = 0 := by
    intro hnone
    cases hlast : (distinctCounts haltMnemonic code).getLast? with
    | none => rfl
    | some n => exact File.magnitude_of_nonpos (getLast?_distinctCounts_nonpos hsound hnone hlast)
  cases hhot : hottest? code with
  | none =>
    rw [hcold fun ins hins hreach => absurd hreach (hottest?_eq_none_iff.1 hhot ins hins)]
    exact (File.magnitude_of_nonpos (Int.le_refl 0)).symm
  | some c =>
    rw [Option.getD_some]
    by_cases hpos : 0 < c
    · rw [getLast?_distinctCounts_of_hottest hsound hhot hpos]
      rfl
    · have hle : c ≤ 0 := by omega
      have hmax := (hottest?_eq_some_iff.1 hhot).2
      rw [hcold fun ins hins hreach => (hmax ins hins hreach).trans hle,
        File.magnitude_of_nonpos hle]

end Hottest

/-! ## Files -/

namespace File

/-- The highest count of code on a line that control reaches. -/
def hottest? (f : File) (number : Int) : Option Int :=
  (f.line? number).bind fun l => BytecodeCoverage.hottest? l.code

/-- Asking lines for their counts does not change what they are profiled with. -/
theorem profileBucket_settle (f : File) (asked : Int → Bool) (number : Int) :
    (f.settle asked).profileBucket number = f.profileBucket number := by
  have hline : (f.settle asked).line? number =
      (f.line? number).map fun l => if asked number then l.settle else l := by
    simp [settle, line?]
  rw [profileBucket, profileBucket, hline]
  cases f.line? number with
  | none => rfl
  | some l =>
    simp only [Option.map_some]
    split
    · rw [Line.counts_settle]
    · rfl

end File

section Scripts

variable {haltMnemonic name : String} {scripts : List Script} {f : File} {number : Int}

theorem profileBucket_eq_magnitude (hsound : ∀ s ∈ scripts, s.IsSound)
    (hf : (groupByFile haltMnemonic scripts)[name]? = some f) :
    f.profileBucket number = File.magnitude ((f.hottest? number).getD 0) := by
  rw [File.profileBucket, File.hottest?]
  cases hl : f.line? number with
  | none => exact (File.magnitude_of_nonpos (Int.le_refl 0)).symm
  | some l =>
    simp only [Option.bind_some, counts_of_groupByFile hf hl]
    exact magnitude_getLast?_distinctCounts (forall_code_of_groupByFile hsound hf hl)

theorem getLast?_counts_of_hottest (hsound : ∀ s ∈ scripts, s.IsSound)
    (hf : (groupByFile haltMnemonic scripts)[name]? = some f) {count : Int}
    (h : f.hottest? number = some count) (hpos : 0 < count) :
    (f.line? number).bind (·.counts.getLast?) = some count := by
  obtain ⟨l, hl, hhot⟩ := Option.bind_eq_some_iff.1 h
  rw [hl, Option.bind_some, counts_of_groupByFile hf hl]
  exact getLast?_distinctCounts_of_hottest (forall_code_of_groupByFile hsound hf hl) hhot hpos

theorem hottest?_nonneg (hsound : ∀ s ∈ scripts, s.IsSound)
    (hf : (groupByFile haltMnemonic scripts)[name]? = some f) {count : Int}
    (h : f.hottest? number = some count) : 0 ≤ count := by
  obtain ⟨l, hl, hhot⟩ := Option.bind_eq_some_iff.1 h
  obtain ⟨⟨ins, hins, -, rfl⟩, -⟩ := hottest?_eq_some_iff.1 hhot
  exact (forall_code_of_groupByFile hsound hf hl ins hins).count

end Scripts

/-- The bucket of a line tells the order of magnitude of its hottest instruction: it is zero where
control reaches none or none of them ran, and otherwise the capped logarithm of the highest count,
which is the last that the line has. It never falls where that rises. -/
theorem profileBucket_groupByFile {g : Grammar} {records : List (List String)}
    {haltMnemonic name : String} {f : File}
    (h : (groupByFile haltMnemonic (Session.attemptAll g {} records).scripts)[name]? = some f) :
    (∀ number,
      (f.line? number = none ∨ f.hottest? number = none ∨ f.hottest? number = some 0 →
        f.profileBucket number = 0) ∧
      ∀ count, f.hottest? number = some count →
        0 ≤ count ∧
        (0 < count → (f.line? number).bind (·.counts.getLast?) = some count ∧
          (∀ b, f.profileBucket number = b ↔
            b ≤ 9 ∧ 10 ^ b ≤ count ∧ (b = 9 ∨ count < 10 ^ (b + 1))) ∧
          f.profileBucket number = min ⌊Real.logb 10 count⌋₊ 9)) ∧
    ∀ number number' count count', f.hottest? number = some count →
      f.hottest? number' = some count' → count ≤ count' →
        f.profileBucket number ≤ f.profileBucket number' := by
  have hsound : ∀ s ∈ (Session.attemptAll g {} records).scripts, s.IsSound := fun _ =>
    (Session.isSound_new.attemptAll records).of_mem_scripts
  have hbucket : ∀ {number count}, f.hottest? number = some count →
      f.profileBucket number = File.magnitude count := by
    intro number count hhot
    rw [profileBucket_eq_magnitude hsound h, hhot, Option.getD_some]
  refine ⟨fun number => ⟨?_, fun count hhot => ⟨hottest?_nonneg hsound h hhot, fun hpos => ?_⟩⟩, ?_⟩
  · intro hcold
    have hzero : (f.hottest? number).getD 0 = 0 := by
      rcases hcold with hnone | hnone | hzero
      · rw [File.hottest?, hnone]
        rfl
      · rw [hnone, Option.getD_none]
      · rw [hzero, Option.getD_some]
    rw [profileBucket_eq_magnitude hsound h, hzero]
    exact File.magnitude_of_nonpos (Int.le_refl 0)
  · rw [hbucket hhot]
    exact ⟨getLast?_counts_of_hottest hsound h hhot hpos, File.magnitude_eq_iff hpos,
      File.magnitude_eq_logb hpos⟩
  · intro number number' count count' hhot hhot' hle
    rw [hbucket hhot, hbucket hhot']
    exact File.magnitude_mono hle

/-- An instruction that ran a thousand times, one after it that the counts leave out, and code on
the next line that control cannot reach. -/
def heatRecord : List String :=
  ["--- SCRIPT a.js:1 ---", "0:1000/0/0 x 1 pop", "1:0/0/0 x 1 stop", "2:7/0/0 x 2 stop",
    "--- END SCRIPT ---"]

def heatFile : Option File :=
  (groupByFile "stop" (Session.attemptAll {} {} [heatRecord]).scripts)["a.js"]?

theorem profileBucket_heatFile : ∃ f, heatFile = some f ∧
    f.hottest? 1 = some 1000 ∧ ((f.line? 1).map (·.counts)) = some [1000] ∧
    (∀ b, f.profileBucket 1 = b ↔ b ≤ 9 ∧ 10 ^ b ≤ (1000 : Int) ∧
      (b = 9 ∨ (1000 : Int) < 10 ^ (b + 1))) ∧ f.profileBucket 1 = 3 ∧
    f.hottest? 2 = none ∧ f.profileBucket 2 = 0 := by
  have hsome : heatFile.isSome := by decide +kernel
  have hfirst : (heatFile.bind (·.hottest? 1)) = some 1000 := by decide +kernel
  have hcounts : (heatFile.bind fun f => (f.line? 1).map (·.counts)) = some [1000] := by
    decide +kernel
  have hsecond : (heatFile.bind (·.hottest? 2)) = none := by decide +kernel
  obtain ⟨f, hf⟩ := Option.isSome_iff_exists.1 hsome
  rw [hf, Option.bind_some] at hfirst hcounts hsecond
  obtain ⟨hlines, -⟩ := profileBucket_groupByFile hf
  obtain ⟨-, hbucket, -⟩ := ((hlines 1).2 1000 hfirst).2 (by decide)
  exact ⟨f, hf, hfirst, hcounts, hbucket, (hbucket 3).2 (by decide), hsecond,
    (hlines 2).1 (.inr (.inl hsecond))⟩

end BytecodeCoverage
