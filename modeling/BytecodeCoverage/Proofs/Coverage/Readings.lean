-- SUMMARY: Which counts a line tells of its instructions, and which it keeps to itself.
import BytecodeCoverage.Coverage.Line

/-!
# Readings

A line tells of every unreachable instruction and of every positive count. A count of zero it tells
only where it is exposed: on the first instruction, or after one that does not fall through. Its
distinct counts are what it tells, in ascending order and each once.
-/

namespace BytecodeCoverage

/-! ## Numbers in ascending order -/

theorem mem_insertCount {m n : Int} {ns : List Int} : m ∈ insertCount n ns ↔ m = n ∨ m ∈ ns := by
  induction ns with
  | nil => simp [insertCount]
  | cons k rest ih =>
    unfold insertCount
    split
    · simp
    · split
      · rename_i hk
        simp [hk]
      · simp only [List.mem_cons, ih]
        exact or_left_comm

theorem pairwise_insertCount {n : Int} {ns : List Int} (h : ns.Pairwise (· < ·)) :
    (insertCount n ns).Pairwise (· < ·) := by
  induction ns with
  | nil => simp [insertCount]
  | cons k rest ih =>
    obtain ⟨hk, hrest⟩ := List.pairwise_cons.1 h
    unfold insertCount
    split
    · rename_i hlt
      refine List.pairwise_cons.2 ⟨?_, h⟩
      intro m hm
      rcases List.mem_cons.1 hm with rfl | hm
      · exact hlt
      · exact Int.lt_trans hlt (hk m hm)
    · split
      · exact h
      · refine List.pairwise_cons.2 ⟨?_, ih hrest⟩
        intro m hm
        rcases mem_insertCount.1 hm with rfl | hm
        · omega
        · exact hk m hm

theorem mem_ascending {m : Int} {ns : List Int} : m ∈ ascending ns ↔ m ∈ ns := by
  induction ns with
  | nil => simp [ascending]
  | cons n rest ih =>
    rw [List.mem_cons, ← ih]
    exact mem_insertCount

theorem pairwise_ascending (ns : List Int) : (ascending ns).Pairwise (· < ·) := by
  induction ns with
  | nil => exact List.Pairwise.nil
  | cons n rest ih => exact pairwise_insertCount ih

theorem ascending_of_alike {n : Int} {rest : List Int} (h : ∀ m ∈ rest, m = n) :
    ascending (n :: rest) = [n] := by
  induction rest with
  | nil => rfl
  | cons m rest ih =>
    obtain ⟨rfl, hrest⟩ := List.forall_mem_cons.1 h
    change insertCount m (ascending (m :: rest)) = [m]
    rw [ih hrest]
    simp [insertCount]

/-! ## Instructions -/

/-- No count is below zero, and only code that control reaches falls through. -/
structure Instruction.Sound (ins : Instruction) : Prop where
  count : 0 ≤ ins.count
  reachable : ins.fallsThrough → ins.reachable

instance (ins : Instruction) : Decidable ins.Sound :=
  decidable_of_iff (0 ≤ ins.count ∧ (ins.fallsThrough → ins.reachable))
    ⟨fun h => ⟨h.1, h.2⟩, fun h => ⟨h.count, h.reachable⟩⟩

/-- The instruction before a position, where one more may stand before them all. -/
def before (previous : Option Instruction) (code : List Instruction) : Nat → Option Instruction
  | 0 => previous
  | i + 1 => code[i]?

/-- The instruction at a position could have run and did not, and does not just follow one that
falls through. -/
def ExposedAfter (previous : Option Instruction) (code : List Instruction) (i : Nat) : Prop :=
  ∃ ins, code[i]? = some ins ∧ ins.reachable ∧ ins.count = 0 ∧
    ∀ p, before previous code i = some p → ¬ p.fallsThrough

def Exposed (code : List Instruction) (i : Nat) : Prop := ExposedAfter none code i

/-- Some of the code ran. -/
def RanSome (code : List Instruction) : Prop := ∃ ins ∈ code, ins.reachable ∧ 0 < ins.count

section Readings

variable {previous : Option Instruction} {ins : Instruction} {rest code : List Instruction}

theorem exposedAfter_zero : ExposedAfter previous (ins :: rest) 0 ↔
    ins.reachable ∧ ins.count = 0 ∧ ∀ p, previous = some p → ¬ p.fallsThrough := by
  simp [ExposedAfter, before]

theorem exposedAfter_succ {i : Nat} :
    ExposedAfter previous (ins :: rest) (i + 1) ↔ ExposedAfter (some ins) rest i := by
  cases i with
  | zero => simp [ExposedAfter, before]
  | succ i => simp [ExposedAfter, before]

theorem exists_exposedAfter_cons : (∃ i, ExposedAfter previous (ins :: rest) i) ↔
    (ins.reachable ∧ ins.count = 0 ∧ ∀ p, previous = some p → ¬ p.fallsThrough) ∨
      ∃ i, ExposedAfter (some ins) rest i := by
  constructor
  · rintro ⟨i, hi⟩
    cases i with
    | zero => exact .inl (exposedAfter_zero.1 hi)
    | succ i => exact .inr ⟨i, exposedAfter_succ.1 hi⟩
  · rintro (h | ⟨i, hi⟩)
    · exact ⟨0, exposedAfter_zero.2 h⟩
    · exact ⟨i + 1, exposedAfter_succ.2 hi⟩

/-! ## What the readings are -/

theorem isEcho_eq_true_iff : isEcho previous ins = true ↔
    ∃ p, previous = some p ∧ p.fallsThrough ∧ (ins.count = p.count ∨ ins.count = 0) := by
  cases previous with
  | none => simp [isEcho]
  | some p =>
    simp only [isEcho, Bool.and_eq_true, Bool.or_eq_true, decide_eq_true_eq, Option.some.injEq,
      exists_eq_left']
    refine and_congr_right fun _ => ?_
    omega

theorem mem_readings_cons {r : Reading} : r ∈ readings previous (ins :: rest) ↔
    (ins.reachable = false ∧ r = .unreachable) ∨
      (ins.reachable ∧ isEcho previous ins = false ∧ r = .ran ins.count) ∨
        r ∈ readings (some ins) rest := by
  rw [readings]
  cases ins.reachable with
  | false => simp
  | true => cases isEcho previous ins <;> simp

theorem unreachable_mem_readings :
    .unreachable ∈ readings previous code ↔ ∃ ins ∈ code, ins.reachable = false := by
  induction code generalizing previous with
  | nil => simp [readings]
  | cons ins rest ih => simp [mem_readings_cons, ih]

theorem exists_of_ran_mem_readings {n : Int} (h : .ran n ∈ readings previous code) :
    ∃ ins ∈ code, ins.reachable ∧ ins.count = n := by
  induction code generalizing previous with
  | nil => cases h
  | cons ins rest ih =>
    rcases mem_readings_cons.1 h with ⟨-, h⟩ | ⟨hr, -, h⟩ | h
    · cases h
    · cases h
      exact ⟨ins, .head _, hr, rfl⟩
    · obtain ⟨other, hother, hcount⟩ := ih h
      exact ⟨other, .tail _ hother, hcount⟩

/-- A count of zero is told where it is exposed. -/
theorem ran_zero_mem_readings :
    .ran 0 ∈ readings previous code ↔ ∃ i, ExposedAfter previous code i := by
  induction code generalizing previous with
  | nil => simp [readings, ExposedAfter]
  | cons ins rest ih =>
    have hhere : (ins.reachable ∧ isEcho previous ins = false ∧ Reading.ran 0 = .ran ins.count) ↔
        (ins.reachable ∧ ins.count = 0 ∧ ∀ p, previous = some p → ¬ p.fallsThrough) := by
      rw [← Bool.not_eq_true, isEcho_eq_true_iff, Reading.ran.injEq]
      refine and_congr_right fun _ => ?_
      constructor
      · rintro ⟨hecho, hcount⟩
        exact ⟨hcount.symm, fun p hp hfalls => hecho ⟨p, hp, hfalls, .inr hcount.symm⟩⟩
      · rintro ⟨hcount, hfalls⟩
        exact ⟨fun ⟨p, hp, hp', _⟩ => hfalls p hp hp', hcount.symm⟩
    rw [mem_readings_cons, exists_exposedAfter_cons, hhere, ih]
    simp

/-- A positive count is told, unless the instruction before falls through with the same one. By
induction on the code: an echo passes on the count of the one before it, which has been told. -/
theorem ran_mem_readings_of_pos {n : Int} (hn : 0 < n) (hsound : ∀ ins ∈ code, ins.Sound)
    (h : ∃ ins ∈ code, ins.reachable ∧ ins.count = n) :
    .ran n ∈ readings previous code ∨
      ∃ p, previous = some p ∧ p.fallsThrough ∧ p.count = n := by
  induction code generalizing previous with
  | nil =>
    obtain ⟨ins, hins, -⟩ := h
    cases hins
  | cons ins rest ih =>
    have hhere : ins.reachable → ins.count = n → .ran n ∈ readings previous (ins :: rest) ∨
        ∃ p, previous = some p ∧ p.fallsThrough ∧ p.count = n := by
      intro hr hcount
      cases hecho : isEcho previous ins with
      | false => exact .inl (mem_readings_cons.2 (.inr (.inl ⟨hr, hecho, by rw [hcount]⟩)))
      | true =>
        obtain ⟨p, hp, hfalls, hsame | hzero⟩ := isEcho_eq_true_iff.1 hecho
        · exact .inr ⟨p, hp, hfalls, hsame.symm.trans hcount⟩
        · omega
    obtain ⟨hins, hrest⟩ := List.forall_mem_cons.1 hsound
    obtain ⟨other, hother, hr, hcount⟩ := h
    rcases List.mem_cons.1 hother with rfl | hother
    · exact hhere hr hcount
    · have hafter : .ran n ∈ readings (some ins) rest ∨
          ∃ p, some ins = some p ∧ p.fallsThrough ∧ p.count = n :=
        ih hrest ⟨other, hother, hr, hcount⟩
      rcases hafter with htold | ⟨p, hp, hfalls, hsame⟩
      · exact .inl (mem_readings_cons.2 (.inr (.inr htold)))
      · cases hp
        exact hhere (hins.reachable hfalls) hsame

/-- Of code that control reaches, some ran or some is exposed. -/
theorem exposed_or_ranSome (hsound : ∀ ins ∈ code, ins.Sound)
    (hprevious : ∀ p, previous = some p → ¬ p.fallsThrough)
    (h : ∃ ins ∈ code, ins.reachable) : (∃ i, ExposedAfter previous code i) ∨ RanSome code := by
  induction code generalizing previous with
  | nil =>
    obtain ⟨ins, hins, -⟩ := h
    cases hins
  | cons ins rest ih =>
    obtain ⟨hins, hrest⟩ := List.forall_mem_cons.1 hsound
    by_cases hr : ins.reachable
    · by_cases hzero : ins.count = 0
      · exact .inl ⟨0, exposedAfter_zero.2 ⟨hr, hzero, hprevious⟩⟩
      · have hcount := hins.count
        exact .inr ⟨ins, .head _, hr, by omega⟩
    · obtain ⟨other, hother, hreach⟩ := h
      have hne : other ∈ rest := by
        rcases List.mem_cons.1 hother with rfl | hother
        · exact absurd hreach hr
        · exact hother
      have hfalls : ∀ p, some ins = some p → ¬ p.fallsThrough := by
        rintro p ⟨⟩ hp
        exact hr (hins.reachable hp)
      rcases ih hrest hfalls ⟨other, hne, hreach⟩ with hexposed | ⟨ran, hran, hcount⟩
      · exact .inl (exists_exposedAfter_cons.2 (.inr hexposed))
      · exact .inr ⟨ran, .tail _ hran, hcount⟩

end Readings

/-! ## Distinct counts -/

/-- There is nothing on the line, or nothing but a halt that control cannot reach. -/
def IsIdle (haltMnemonic : String) (code : List Instruction) : Prop :=
  code = [] ∨ ∃ ins, code = [ins] ∧ ins.reachable = false ∧ ins.text = haltMnemonic

/-- What the readings of a line count. -/
def told (code : List Instruction) : List Int := (readings none code).map (·.count)

section DistinctCounts

variable {haltMnemonic : String} {code : List Instruction}

/-- What does not follow an instruction that falls through is told. -/
theorem readings_ne_nil {previous : Option Instruction} (hcode : code ≠ [])
    (hprevious : ∀ p, previous = some p → ¬ p.fallsThrough) : readings previous code ≠ [] := by
  cases code with
  | nil => exact absurd rfl hcode
  | cons ins rest =>
    have hecho : isEcho previous ins = false := by
      rw [← Bool.not_eq_true, isEcho_eq_true_iff]
      rintro ⟨p, hp, hfalls, -⟩
      exact hprevious p hp hfalls
    rw [readings, hecho]
    cases ins.reachable with
    | false => exact List.cons_ne_nil _ _
    | true => exact List.cons_ne_nil _ _

theorem readings_eq_unreachable_iff (hsound : ∀ ins ∈ code, ins.Sound) :
    readings none code = [.unreachable] ↔ ∃ ins, code = [ins] ∧ ins.reachable = false := by
  constructor
  · intro h
    cases code with
    | nil => cases h
    | cons ins rest =>
      have hr : ins.reachable = false := by
        cases hr : ins.reachable with
        | false => rfl
        | true => simp [readings, hr, isEcho] at h
      simp only [readings, hr, Bool.not_false, if_true, List.cons.injEq, true_and] at h
      by_cases hrest : rest = []
      · exact ⟨ins, by rw [hrest], hr⟩
      · refine absurd h (readings_ne_nil hrest ?_)
        rintro p ⟨⟩ hfalls
        rw [(hsound ins (.head _)).reachable hfalls] at hr
        cases hr
  · rintro ⟨ins, rfl, hr⟩
    simp [readings, hr]

/-- A line of which all ran equally often has the one count that it would have anyway. -/
theorem take_one_of_ranAlike {rs : List Reading} (h : ranAlike rs) :
    (rs.take 1).map (·.count) = ascending (rs.map (·.count)) := by
  match rs, h with
  | .ran n :: rest, h =>
    refine (ascending_of_alike ?_).symm
    intro m hm
    obtain ⟨r, hr, rfl⟩ := List.mem_map.1 hm
    rw [of_decide_eq_true (List.all_eq_true.1 h r hr)]

theorem distinctCounts_of_idle (h : IsIdle haltMnemonic code) :
    distinctCounts haltMnemonic code = [] := by
  rcases h with rfl | ⟨ins, rfl, hr, htext⟩
  · rfl
  · simp [distinctCounts, readings, hr, ranAlike, htext]

theorem distinctCounts_of_not_idle (hsound : ∀ ins ∈ code, ins.Sound)
    (h : ¬ IsIdle haltMnemonic code) :
    distinctCounts haltMnemonic code = ascending (told code) := by
  simp only [distinctCounts]
  split
  · rename_i halike
    exact take_one_of_ranAlike halike
  · split
    · rename_i hlone
      obtain ⟨ins, rfl, hr⟩ := (readings_eq_unreachable_iff hsound).1 hlone.1
      exact absurd (.inr ⟨ins, rfl, hr, Option.some.inj hlone.2⟩) h
    · rfl

/-- All that a line tells: whether code is unreachable, whether some is exposed, and each positive
count. -/
structure Tells (code : List Instruction) (ns : List Int) : Prop where
  bound : ∀ n ∈ ns, -1 ≤ n
  unreachable : -1 ∈ ns ↔ ∃ ins ∈ code, ins.reachable = false
  zero : 0 ∈ ns ↔ ∃ i, Exposed code i
  positive : ∀ n, 0 < n → (n ∈ ns ↔ ∃ ins ∈ code, ins.reachable ∧ ins.count = n)

theorem tells_told (hsound : ∀ ins ∈ code, ins.Sound) : Tells code (told code) := by
  have hmem : ∀ {n : Int}, n ≠ -1 → (n ∈ told code ↔ .ran n ∈ readings none code) := by
    intro n hn
    constructor
    · intro h
      obtain ⟨r, hr, hcount⟩ := List.mem_map.1 h
      cases r with
      | ran m =>
        obtain rfl : m = n := hcount
        exact hr
      | unreachable => exact absurd hcount.symm hn
    · exact fun h => List.mem_map_of_mem h
  have hran : ∀ {n : Int}, .ran n ∈ readings none code → 0 ≤ n := by
    intro n h
    obtain ⟨ins, hins, -, rfl⟩ := exists_of_ran_mem_readings h
    exact (hsound ins hins).count
  refine ⟨?_, ?_, ?_, ?_⟩
  · intro n hn
    by_cases hne : n = -1
    · exact hne ▸ Int.le_refl _
    · have hpos := hran ((hmem hne).1 hn)
      omega
  · constructor
    · intro h
      obtain ⟨r, hr, hcount⟩ := List.mem_map.1 h
      cases r with
      | ran m =>
        obtain rfl : m = -1 := hcount
        exact absurd (hran hr) (by decide)
      | unreachable => exact unreachable_mem_readings.1 hr
    · intro h
      have hr : .unreachable ∈ readings none code := unreachable_mem_readings.2 h
      exact List.mem_map_of_mem hr
  · rw [hmem (by decide), ran_zero_mem_readings]
    rfl
  · intro n hn
    rw [hmem (by omega)]
    constructor
    · exact exists_of_ran_mem_readings
    · intro h
      rcases ran_mem_readings_of_pos hn hsound h with htold | ⟨p, hp, -⟩
      · exact htold
      · cases hp

theorem tells_distinctCounts (hsound : ∀ ins ∈ code, ins.Sound) (h : ¬ IsIdle haltMnemonic code) :
    Tells code (distinctCounts haltMnemonic code) := by
  obtain ⟨hbound, hunreachable, hzero, hpositive⟩ := tells_told hsound
  rw [distinctCounts_of_not_idle hsound h]
  refine ⟨?_, ?_, ?_, ?_⟩
  · exact fun n hn => hbound n (mem_ascending.1 hn)
  · exact mem_ascending.trans hunreachable
  · exact mem_ascending.trans hzero
  · exact fun n hn => mem_ascending.trans (hpositive n hn)

theorem bound_distinctCounts (hsound : ∀ ins ∈ code, ins.Sound) :
    ∀ n ∈ distinctCounts haltMnemonic code, -1 ≤ n := by
  by_cases hidle : IsIdle haltMnemonic code
  · rw [distinctCounts_of_idle hidle]
    exact nofun
  · exact (tells_distinctCounts hsound hidle).bound

/-- The counts of a line have no positive number but counts of code that control reaches. -/
theorem exists_of_mem_distinctCounts (hsound : ∀ ins ∈ code, ins.Sound) {n : Int}
    (hn : n ∈ distinctCounts haltMnemonic code) (hpos : 0 < n) :
    ∃ ins ∈ code, ins.reachable ∧ ins.count = n := by
  by_cases hidle : IsIdle haltMnemonic code
  · rw [distinctCounts_of_idle hidle] at hn
    cases hn
  · exact ((tells_distinctCounts hsound hidle).positive n hpos).1 hn

theorem pairwise_distinctCounts (hsound : ∀ ins ∈ code, ins.Sound) :
    (distinctCounts haltMnemonic code).Pairwise (· < ·) := by
  by_cases h : IsIdle haltMnemonic code
  · rw [distinctCounts_of_idle h]
    exact List.Pairwise.nil
  · rw [distinctCounts_of_not_idle hsound h]
    exact pairwise_ascending _

theorem not_reachable_of_idle (h : IsIdle haltMnemonic code) :
    ∀ ins ∈ code, ins.reachable = false := by
  rcases h with rfl | ⟨ins, rfl, hr, -⟩
  · intro ins hins
    cases hins
  · intro other hother
    rw [List.mem_singleton.1 hother, hr]

theorem not_exposed_of_unreachable (h : ∀ ins ∈ code, ins.reachable = false) :
    ¬ ∃ i, Exposed code i := by
  rintro ⟨i, ins, hins, hr, -⟩
  rw [h ins (List.mem_of_getElem? hins)] at hr
  cases hr

theorem not_ranSome_of_unreachable (h : ∀ ins ∈ code, ins.reachable = false) :
    ¬ RanSome code := by
  rintro ⟨ins, hins, hr, -⟩
  rw [h ins hins] at hr
  cases hr

/-- On every line, a count of zero is told just where one is exposed. -/
theorem zero_mem_distinctCounts (hsound : ∀ ins ∈ code, ins.Sound) :
    0 ∈ distinctCounts haltMnemonic code ↔ ∃ i, Exposed code i := by
  by_cases h : IsIdle haltMnemonic code
  · rw [distinctCounts_of_idle h]
    exact iff_of_false (List.not_mem_nil) (not_exposed_of_unreachable (not_reachable_of_idle h))
  · exact (tells_distinctCounts hsound h).zero

end DistinctCounts

end BytecodeCoverage
