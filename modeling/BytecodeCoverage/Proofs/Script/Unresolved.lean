-- SUMMARY: The search of a script fails exactly if control reaches a jump that cannot be followed.
import BytecodeCoverage.Proofs.Script.Faults
import BytecodeCoverage.Proofs.Script.Reachability

/-!
# Searches that fail

An instruction names operands, and each of them stands for a target. The instruction can be followed
if every operand is short enough to be converted and every target is the address of an instruction.
A search fails exactly if the graph reaches one that cannot. In which order it comes to the
positions does not matter for that: what it entered before it failed is all in the graph, and what
it entered without failing is closed.
-/

namespace BytecodeCoverage

/-! ## Operands and targets -/

namespace SignedDigits

/-- The digits are too many to be converted. -/
def isOverlong (d : SignedDigits) : Bool := Numeral.digitLimit < d.digits.length

/-- The number that the digits write, however many they are. -/
def value (d : SignedDigits) : Int :=
  if d.negative then -(Text.digitsValue d.digits : Int) else Text.digitsValue d.digits

theorem read_eq_ok {d : SignedDigits} (h : d.isOverlong = false) : d.read = .ok d.value := by
  have hlength : d.digits.length ≤ Numeral.digitLimit := by simpa [isOverlong] using h
  rw [read, Numeral.readSigned, Numeral.read_eq_ok hlength]
  rfl

theorem read_eq_error {d : SignedDigits} (h : d.isOverlong = true) :
    d.read = .error (.overlongDigits d.digits.length) := by
  have hlength : Numeral.digitLimit < d.digits.length := by simpa [isOverlong] using h
  rw [read, Numeral.readSigned, Numeral.read_eq_error.2 ⟨hlength, rfl⟩]
  rfl

theorem isOverlong_iff (d : SignedDigits) : d.isOverlong ↔ ∃ e, d.read = .error e := by
  cases h : d.isOverlong with
  | true => simp [read_eq_error h]
  | false => simp [read_eq_ok h]

theorem mapM_read {ds : List SignedDigits} (h : ds.find? (·.isOverlong) = none) :
    ds.mapM read = .ok (ds.map (·.value)) := by
  rw [List.find?_eq_none] at h
  induction ds with
  | nil => rfl
  | cons d rest ih =>
    obtain ⟨hd, hrest⟩ := List.forall_mem_cons.1 h
    rw [List.mapM_cons, read_eq_ok (by simpa using hd), ih hrest]
    rfl

end SignedDigits

namespace Instruction

/-- What the text of the instruction names as places to go to, in the order in which they are
followed. A linear instruction and one that leaves the script name none. -/
def operands (ins : Instruction) : List SignedDigits :=
  match flowKind ins.text with
  | .linear | .terminator => []
  | .unconditional | .conditional => (branchDigits? ins.text.toList).toList.map (⟨false, ·⟩)
  | .switch => switchDigits ins.text.toList

/-- Where the operands are counted from: a switch names offsets from its own address. -/
def origin (ins : Instruction) : Int := if flowKind ins.text = .switch then ins.address else 0

/-- The addresses that the operands stand for. -/
def targets (ins : Instruction) : List Int := ins.operands.map fun d => ins.origin + d.value

end Instruction

namespace Script

variable {s : Script} {ins : Instruction} {i : Nat} {e : Fault}

/-- No instruction of the script has the address. -/
def misses (s : Script) (address : Int) : Bool := s.instructions.all (·.address ≠ address)

theorem misses_iff {address : Int} : s.misses address ↔ s.position? address = none := by
  rw [position?, lastPosition?_eq_none_iff, misses, Array.all_eq_true']
  simp

/-- The instruction cannot be followed: one of its operands is too long to be converted, or one of
its targets is no address of the script. -/
def IsFaulty (s : Script) (ins : Instruction) : Prop :=
  (∃ d ∈ ins.operands, d.isOverlong) ∨ ∃ target ∈ ins.targets, s.misses target

/-- The fault says why the instruction cannot be followed. All operands are converted before the
first target is looked up, and the first that goes wrong is the one that is told. -/
inductive Explains (s : Script) (ins : Instruction) : Fault → Prop where
  | overlong {d : SignedDigits} (h : ins.operands.find? (·.isOverlong) = some d) :
      Explains s ins (.overlongDigits d.digits.length)
  | missed {target : Int} (hread : ins.operands.find? (·.isOverlong) = none)
      (h : ins.targets.find? s.misses = some target) :
      Explains s ins (.unresolvedTarget s.name ins.address target)

/-- What may have to be told about the instruction can be written: that it has no target, under the
name of the script, and that it misses one, with the name and both addresses. -/
structure Tellable (s : Script) (ins : Instruction) : Prop where
  stray : lacksTarget ins → s.nameIsWritable
  missed : ∀ target, ins.targets.find? s.misses = some target →
    s.nameIsWritable ∧ Numeral.isWritable ins.address ∧ Numeral.isWritable target

theorem Tellable.of_writable (hname : s.nameIsWritable) (haddress : Numeral.isWritable ins.address)
    (htargets : ∀ target ∈ ins.targets, Numeral.isWritable target) : s.Tellable ins :=
  ⟨fun _ => hname, fun target h => ⟨hname, haddress, htargets target (List.mem_of_find?_eq_some h)⟩⟩

theorem exists_explains_iff : (∃ e, s.Explains ins e) ↔ s.IsFaulty ins := by
  constructor
  · rintro ⟨_, h | ⟨-, h⟩⟩
    · exact .inl ⟨_, List.mem_of_find?_eq_some h, List.find?_some h⟩
    · exact .inr ⟨_, List.mem_of_find?_eq_some h, List.find?_some h⟩
  · intro h
    cases hoverlong : ins.operands.find? (·.isOverlong) with
    | some d => exact ⟨_, .overlong hoverlong⟩
    | none =>
      rcases h with ⟨d, hd, hlong⟩ | ⟨target, htarget, hmissed⟩
      · exact absurd hlong (List.find?_eq_none.1 hoverlong d hd)
      · obtain ⟨first, hfirst⟩ := Option.isSome_iff_exists.1
          (List.find?_isSome.2 ⟨target, htarget, hmissed⟩)
        exact ⟨_, .missed hoverlong hfirst⟩

/-! ## Following one instruction -/

theorem misses_iff_resolve_fails {source target : Int} :
    s.misses target ↔ ∃ e, s.resolve source target = .error e := by
  rw [misses_iff, resolve]
  cases s.position? target with
  | some j => simp
  | none =>
    simp only [true_iff]
    split <;> exact ⟨_, rfl⟩

/-- If all but the target can be told, its length decides what is told. -/
theorem resolve_missed {source target : Int} (h : s.misses target) (hname : s.nameIsWritable)
    (hsource : Numeral.isWritable source) :
    s.resolve source target = .error (if Numeral.isWritable target
      then .unresolvedTarget s.name source target else .overlongNumber) := by
  simp only [resolve, misses_iff.1 h, hname, hsource, Bool.true_and]
  split <;> rfl

theorem resolve_of_misses {source target : Int} (h : s.misses target)
    (hwritable : s.nameIsWritable ∧ Numeral.isWritable source ∧ Numeral.isWritable target) :
    s.resolve source target = .error (.unresolvedTarget s.name source target) := by
  obtain ⟨hname, hsource, htarget⟩ := hwritable
  rw [resolve_missed h hname hsource, if_pos htarget]

/-- Convert all operands, then look up the targets. -/
def follow (s : Script) (ins : Instruction) : Except Fault (List Nat) :=
  ins.operands.mapM SignedDigits.read >>= fun values =>
    values.mapM fun n => s.resolve ins.address (ins.origin + n)

/-- Where an instruction goes on to before it looks at its targets. -/
def stepsOn (i : Nat) (ins : Instruction) : List Nat :=
  match flowKind ins.text with
  | .conditional => [i + 1]
  | _ => []

theorem follow_of_nil (h : ins.operands = []) : s.follow ins = .ok [] := by
  rw [follow, h]
  rfl

theorem follow_of_branch
    (h : flowKind ins.text = .unconditional ∨ flowKind ins.text = .conditional) :
    s.follow ins = branchTarget ins.text >>= fun target =>
      match target with
      | none => .ok []
      | some n => (s.resolve ins.address n).map fun j => [j] := by
  have horigin : ins.origin = 0 := by rcases h with h | h <;> simp [Instruction.origin, h]
  have hoperands : ins.operands = (branchDigits? ins.text.toList).toList.map (⟨false, ·⟩) := by
    rcases h with h | h <;> simp only [Instruction.operands, h]
  rw [branchTarget]
  cases hdigits : branchDigits? ins.text.toList with
  | none =>
    rw [hdigits] at hoperands
    exact follow_of_nil hoperands
  | some digits =>
    rw [hdigits] at hoperands
    simp only [follow, hoperands, horigin, Option.toList, List.map_cons, List.map_nil,
      List.mapM_cons, SignedDigits.read, Numeral.readSigned, Int.zero_add]
    cases Numeral.read digits with
    | error e => rfl
    | ok n =>
      change [(n : Int)].mapM (fun n => s.resolve ins.address n) =
        (s.resolve ins.address n).map fun j => [j]
      rw [List.mapM_cons]
      cases s.resolve ins.address n <;> rfl

theorem lacksTarget_iff :
    lacksTarget ins ↔ flowKind ins.text = .unconditional ∧ branchTarget ins.text = .ok none := by
  rw [lacksTarget, branchTarget]
  cases branchDigits? ins.text.toList with
  | none => simp
  | some digits => cases h : Numeral.read digits <;> simp [Except.map, h]

theorem bind_append_singleton {α : Type} (x : Except Fault α) (front : List α) :
    (x >>= fun a => pure (front ++ [a])) = (x.map fun a => [a]).map (front ++ ·) := by
  cases x <;> rfl

/-- Following its operands is all that an instruction which is not linear has to do. -/
theorem successorsOf_eq_follow (hstray : lacksTarget ins → s.nameIsWritable)
    (hkind : flowKind ins.text ≠ .linear) :
    s.successorsOf i ins = (s.follow ins).map (stepsOn i ins ++ ·) := by
  cases hflow : flowKind ins.text with
  | linear => exact absurd hflow hkind
  | terminator =>
    rw [follow_of_nil (by simp [Instruction.operands, hflow])]
    simp only [successorsOf, stepsOn, hflow]
    rfl
  | unconditional =>
    have hname : branchTarget ins.text = .ok none → s.nameIsWritable := fun htarget =>
      hstray (lacksTarget_iff.2 ⟨hflow, htarget⟩)
    rw [follow_of_branch (.inl hflow)]
    simp only [successorsOf, stepsOn, hflow]
    cases htarget : branchTarget ins.text with
    | error e => rfl
    | ok target =>
      cases target with
      | none =>
        simp only [hname htarget]
        rfl
      | some n => exact bind_append_singleton (s.resolve ins.address n) []
  | conditional =>
    rw [follow_of_branch (.inr hflow)]
    simp only [successorsOf, stepsOn, hflow]
    cases branchTarget ins.text with
    | error e => rfl
    | ok target =>
      cases target with
      | none => rfl
      | some n => exact bind_append_singleton (s.resolve ins.address n) [i + 1]
  | switch =>
    have horigin : ins.origin = ins.address := if_pos hflow
    have hoperands : ins.operands = switchDigits ins.text.toList := by
      simp only [Instruction.operands, hflow]
    simp only [successorsOf, switchOffsets, follow, stepsOn, hflow, hoperands, horigin]
    cases (switchDigits ins.text.toList).mapM SignedDigits.read >>= fun offsets =>
      offsets.mapM fun offset => s.resolve ins.address (ins.address + offset) <;> rfl

theorem follow_of_overlong {d : SignedDigits} (h : ins.operands.find? (·.isOverlong) = some d) :
    s.follow ins = .error (.overlongDigits d.digits.length) := by
  have hread := SignedDigits.read_eq_error (List.find?_some h)
  rw [follow, bind_eq_error_iff, mapM_eq_error_iff SignedDigits.isOverlong_iff]
  exact .inl ⟨d, h, hread⟩

theorem follow_of_short (h : ins.operands.find? (·.isOverlong) = none) :
    s.follow ins = ins.targets.mapM (s.resolve ins.address) := by
  rw [follow, SignedDigits.mapM_read h, Instruction.targets, List.mapM_map]
  exact List.mapM_map

theorem follow_eq_error_iff (h : s.Tellable ins) : s.follow ins = .error e ↔ s.Explains ins e := by
  cases hoverlong : ins.operands.find? (·.isOverlong) with
  | some d =>
    rw [follow_of_overlong hoverlong]
    constructor
    · rintro ⟨⟩
      exact .overlong hoverlong
    · rintro (hfirst | ⟨hnone, -⟩)
      · rw [hoverlong] at hfirst
        cases hfirst
        rfl
      · rw [hoverlong] at hnone
        cases hnone
  | none =>
    rw [follow_of_short hoverlong, mapM_eq_error_iff fun _ => misses_iff_resolve_fails]
    constructor
    · rintro ⟨target, htarget, he⟩
      rw [resolve_of_misses (List.find?_some htarget) (h.missed target htarget)] at he
      cases he
      exact .missed hoverlong htarget
    · rintro (hsome | ⟨-, htarget⟩)
      · rw [hoverlong] at hsome
        cases hsome
      · exact ⟨_, htarget, resolve_of_misses (List.find?_some htarget) (h.missed _ htarget)⟩

/-- The successors of an instruction fail to be found exactly if it cannot be followed. -/
theorem successors_eq_error_iff (hins : s.instructions[i]? = some ins) (h : s.Tellable ins) :
    s.successors i = .error e ↔ flowKind ins.text ≠ .linear ∧ s.Explains ins e := by
  simp only [successors, hins]
  by_cases hkind : flowKind ins.text = .linear
  · simp [successorsOf, hkind]
  · rw [successorsOf_eq_follow h.stray hkind, ← follow_eq_error_iff h]
    cases s.follow ins <;> simp [Except.map, hkind]

/-! ## Searches -/

/-- Where nothing was marked as reachable, a search has to enter all that the graph reaches. -/
theorem entered_iff_reached (hfresh : ∀ j, ¬ Marked s.instructions .reachable j) :
    s.Entered i ↔ s.Reached (· < s.instructions.size) i := by
  constructor
  · exact fun h => h.mono fun j hj => hj.1
  · exact fun h => h.mono fun j hj => ⟨hj, hfresh j⟩

/-- A search that fails has just entered the instruction whose successors cannot be found. -/
theorem explore_fails_entered {code : Array Instruction} {agenda : List Arrival}
    {trail : List Nat} (hgains : GainsMarks s.instructions code) (hagenda : ∀ a ∈ agenda, s.Due a)
    (h : (s.explore code agenda trail).fault = some e) :
    ∃ i, s.Entered i ∧ s.successors i = .error e ∧
      Marked (s.explore code agenda trail).instructions .reachable i := by
  fun_induction Script.explore s code agenda trail with
  | case1 code => cases h
  | case2 code trail a rest hlt ins hr ih =>
    exact ih (hgains.trans (.set hlt (.mark a ins))) (fun b hb => hagenda b (.tail _ hb)) h
  | case3 code trail a rest hlt ins hr entered trail' hlinear ih =>
    have hentered := (hagenda a (.head _)).entered (fresh_of_unentered hgains hlt hr)
    exact ih (hgains.trans (.set hlt ((Instruction.Gains.mark a ins).trans (.enter _))))
      ((onward_linear hgains hlt hlinear).due_append hentered fun b hb => hagenda b (.tail _ hb)) h
  | case4 code trail a rest hlt ins hr entered trail' hlinear targets htargets ih =>
    have hentered := (hagenda a (.head _)).entered (fresh_of_unentered hgains hlt hr)
    exact ih (hgains.trans (.set hlt ((Instruction.Gains.mark a ins).trans (.enter _))))
      ((onward_jump hgains hlt hlinear htargets).due_append hentered
        fun b hb => hagenda b (.tail _ hb)) h
  | case5 code trail a rest hlt ins hr entered trail' hlinear e' htargets =>
    cases h
    have hentered := (hagenda a (.head _)).entered (fresh_of_unentered hgains hlt hr)
    exact ⟨a.position, hentered, htargets,
      (marked_set_enter hlt _ _).2 (.inr ⟨rfl, .inl rfl⟩)⟩
  | case6 code trail a rest hlt ih =>
    exact ih hgains (fun b hb => hagenda b (.tail _ hb)) h

theorem search_fails_entered (h : s.search.fault = some e) :
    ∃ i, s.Entered i ∧ s.successors i = .error e ∧
      Marked s.search.instructions .reachable i := by
  refine explore_fails_entered (.refl _) ?_ h
  intro a ha
  rw [List.mem_singleton.1 ha]
  exact due_start s

/-- Whether or not it fails, a search leaves marks only where the graph reaches. -/
theorem reached_of_search_marked (hfresh : ∀ j, ¬ Marked s.instructions .reachable j) {m : Mark}
    (h : Marked s.search.instructions m i) :
    Marked s.instructions m i ∨ s.Reached (· < s.instructions.size) i := by
  have hreached := fun j => entered_iff_reached (i := j) hfresh
  have hlt : i < s.instructions.size := (search_gainsMarks s).size ▸ h.lt_size
  cases m with
  | reachable => exact ((search_justified s).reachable i h).imp id (hreached i).1
  | fallsThrough =>
    exact ((search_justified s).fallsThrough i h).imp id fun hi => (hreached i).1 hi.1
  | entryTarget =>
    refine ((search_justified s).entryTarget i h).imp id ?_
    rintro (rfl | ⟨k, hk, hjump⟩)
    · exact .start hlt
    · exact .step ((hreached k).1 hk) (.jump hjump) hlt

theorem analyze_eq_error_iff : s.analyze = .error e ↔ s.search.fault = some e := by
  rw [analyze]
  cases s.search.fault <;> simp

/-- The graph reaches an instruction that is not linear and cannot be followed. -/
structure Trapped (s : Script) (i : Nat) (ins : Instruction) : Prop where
  reached : s.Reached (· < s.instructions.size) i
  found : s.instructions[i]? = some ins
  jumps : flowKind ins.text ≠ .linear
  faulty : s.IsFaulty ins

/-- The search of a script in which nothing is marked as reachable fails exactly if the graph
reaches an instruction that cannot be followed. The fault says why some such instruction cannot, and
that one is marked as reachable. What was marked by then is all in the graph. This holds if whatever
may have to be told about the instructions that the graph reaches can be written. -/
theorem analyze_fails_iff_trapped {s : Script} (hfresh : ∀ i, ¬ Marked s.instructions .reachable i)
    (htell : ∀ i ins, s.Reached (· < s.instructions.size) i → s.instructions[i]? = some ins →
      s.Tellable ins) :
    ((∃ e, s.analyze = .error e) ↔ ∃ i ins, s.Trapped i ins) ∧
    ∀ e, s.analyze = .error e →
      (∃ i ins, s.Trapped i ins ∧ s.Explains ins e ∧ Marked s.marked.instructions .reachable i) ∧
      (∀ i, Marked s.marked.instructions .reachable i → s.Reached (· < s.instructions.size) i) ∧
      ∀ m i, Marked s.marked.instructions m i →
        Marked s.instructions m i ∨ s.Reached (· < s.instructions.size) i := by
  have hmarked := fun m i => reached_of_search_marked (m := m) (i := i) hfresh
  have hfails : ∀ e, s.analyze = .error e →
      ∃ i ins, s.Trapped i ins ∧ s.Explains ins e ∧ Marked s.marked.instructions .reachable i := by
    intro e he
    obtain ⟨i, hi, hsuccessors, hreachable⟩ := search_fails_entered (analyze_eq_error_iff.1 he)
    have hreached := (entered_iff_reached hfresh).1 hi
    have hins := Array.getElem?_eq_getElem hreached.allowed
    obtain ⟨hkind, hexplains⟩ :=
      (successors_eq_error_iff hins (htell i _ hreached hins)).1 hsuccessors
    have htrapped : s.Trapped i _ :=
      ⟨hreached, hins, hkind, exists_explains_iff.1 ⟨e, hexplains⟩⟩
    exact ⟨i, _, htrapped, hexplains, hreachable⟩
  refine ⟨⟨?_, ?_⟩, ?_⟩
  · rintro ⟨e, he⟩
    obtain ⟨i, ins, htrapped, -⟩ := hfails e he
    exact ⟨i, ins, htrapped⟩
  · rintro ⟨i, ins, hreached, hins, hkind, hfaulty⟩
    cases hfault : s.search.fault with
    | some e => exact ⟨e, analyze_eq_error_iff.2 hfault⟩
    | none =>
      -- A search that ends has found the successors of all that the graph reaches.
      have hentered := (entered_iff_reached hfresh).2 hreached
      obtain ⟨targets, htargets⟩ := (hentered.settled hfault).2.resolved
      obtain ⟨e, hexplains⟩ := exists_explains_iff.2 hfaulty
      have hfails := (successors_eq_error_iff hins (htell i ins hreached hins)).2 ⟨hkind, hexplains⟩
      rw [hfails] at htargets
      cases htargets
  · intro e he
    refine ⟨hfails e he, fun i hi => ?_, hmarked⟩
    exact (hmarked .reachable i hi).resolve_left (hfresh i)

/-- A loop, a switch of which the second target is missing, and a stray jump that nothing leads
to. -/
def straying : Script :=
  { filename := "a"
    startLine := 1
    instructions :=
      #[{ address := 0, sourceLine := 1, text := "pop" },
        { address := 1, sourceLine := 1, text := "ifeq 0" },
        { address := 2, sourceLine := 2, text := "tableswitch offset 1\t0: 7" },
        { address := 3, sourceLine := 3, text := "stop" },
        { address := 4, sourceLine := 3, text := "goto 99" }] }

theorem analyze_straying :
    straying.analyze = .error (.unresolvedTarget "a:1" 2 9) ∧
    (∃ i ins, straying.Trapped i ins) ∧
    ∀ i, Marked straying.marked.instructions .reachable i → straying.Reached (· < 5) i := by
  have hfresh : ∀ i, ¬ Marked straying.instructions .reachable i :=
    not_marked_of_forall (by decide)
  have hwritable : ∀ ins ∈ straying.instructions, Numeral.isWritable ins.address ∧
      ∀ target ∈ ins.targets, Numeral.isWritable target := by decide +kernel
  have htell : ∀ i ins, straying.Reached (· < straying.instructions.size) i →
      straying.instructions[i]? = some ins → straying.Tellable ins := by
    intro i ins _ hins
    obtain ⟨haddress, htargets⟩ := hwritable ins (Array.mem_of_getElem? hins)
    exact .of_writable (by decide +kernel) haddress htargets
  have hfails : straying.analyze = .error (.unresolvedTarget "a:1" 2 9) :=
    analyze_eq_error_iff.2 (by decide +kernel)
  obtain ⟨hiff, hmarked⟩ := analyze_fails_iff_trapped hfresh htell
  obtain ⟨-, hreached, -⟩ := hmarked _ hfails
  exact ⟨hfails, hiff.1 ⟨_, hfails⟩, hreached⟩

/-- A switch at the highest address that can be written, to the address behind it. -/
def farSwitch : Instruction :=
  { address := (Numeral.tooLong - 1 : Nat), sourceLine := 1, text := "tableswitch offset 1" }

def faraway : Script := { filename := "a", startLine := 1, instructions := #[farSwitch] }

/-- The switch misses its target, and no operand of it is too long. But the target is too long to be
written, and so what the search fails with is not what it has to tell. -/
theorem analyze_faraway :
    (∀ i, ¬ Marked faraway.instructions .reachable i) ∧ faraway.Trapped 0 farSwitch ∧
    faraway.Explains farSwitch
      (.unresolvedTarget "a:1" (Numeral.tooLong - 1 : Nat) (Numeral.tooLong : Nat)) ∧
    faraway.analyze = .error .overlongNumber := by
  have hmissed : farSwitch.targets.find? faraway.misses = some (Numeral.tooLong : Nat) := by
    decide +kernel
  have hexplains : faraway.Explains farSwitch
      (.unresolvedTarget "a:1" (Numeral.tooLong - 1 : Nat) (Numeral.tooLong : Nat)) :=
    .missed (by decide +kernel) hmissed
  have htrapped : faraway.Trapped 0 farSwitch :=
    ⟨.start (by decide), rfl, by decide +kernel, exists_explains_iff.1 ⟨_, hexplains⟩⟩
  exact ⟨not_marked_of_forall (by decide), htrapped, hexplains,
    analyze_eq_error_iff.2 (by decide +kernel)⟩

end Script

end BytecodeCoverage
