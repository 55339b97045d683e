-- SUMMARY: A search looks at no counts, and adding counts changes nothing but them.
import BytecodeCoverage.Proofs.Script.Reachability

/-!
# Counts

What a search does with a script does not depend on the counts: without them it marks the same
instructions and fails in the same way. So two dumps of one script are marked alike, whatever was
counted in each, and the counts of the one can be added to those of the other.
-/

namespace BytecodeCoverage

/-! ## Code without its counts -/

namespace Instruction

/-- The instruction without its count. -/
def uncounted (ins : Instruction) : Instruction := { ins with count := 0 }

@[simp] theorem uncounted_text (ins : Instruction) : ins.uncounted.text = ins.text := rfl

@[simp] theorem uncounted_address (ins : Instruction) : ins.uncounted.address = ins.address := rfl

end Instruction

/-- What the exploration is without the counts. -/
def Exploration.uncounted (e : Exploration) : Exploration :=
  { e with instructions := e.instructions.map (·.uncounted) }

/-! ## Changes that a search does not see -/

/-- The change leaves what a search looks at, and it does not matter whether the marks of a search
are made before it or after it. -/
structure Instruction.KeepsFlow (change : Instruction → Instruction) : Prop where
  text : ∀ ins, (change ins).text = ins.text
  reachable : ∀ ins, (change ins).reachable = ins.reachable
  mark : ∀ (a : Arrival) ins, a.mark (change ins) = change (a.mark ins)
  enter : ∀ ins, (change ins).enter = change ins.enter

theorem Instruction.keepsFlow_uncounted : KeepsFlow uncounted := by
  refine ⟨fun _ => rfl, fun _ => rfl, fun a ins => ?_, fun _ => rfl⟩
  cases a with
  | jump i => rfl
  | fall i => rfl

/-- The exploration of changed code, with its fault in other words. -/
def Exploration.map (change : Instruction → Instruction) (reword : Fault → Fault)
    (e : Exploration) : Exploration :=
  { e with instructions := e.instructions.map change, fault := e.fault.map reword }

/-- Positions are told by addresses. -/
theorem lastPosition?_map {change : Instruction → Instruction}
    (h : ∀ ins, (change ins).address = ins.address) (address : Int) (code : List Instruction) :
    lastPosition? address (code.map change) = lastPosition? address code := by
  induction code with
  | nil => rfl
  | cons ins rest ih => simp only [List.map_cons, lastPosition?, ih, h]

/-! ## Scripts without their counts -/

namespace Script

/-- The script without its counts. -/
def uncounted (s : Script) : Script :=
  { s with instructions := s.instructions.map (·.uncounted) }

@[simp] theorem nameIsWritable_uncounted (s : Script) :
    s.uncounted.nameIsWritable = s.nameIsWritable := rfl

theorem resolve_uncounted (s : Script) (source target : Int) :
    s.uncounted.resolve source target = s.resolve source target := by
  have hposition : s.uncounted.position? target = s.position? target := by
    rw [position?, uncounted, Array.toList_map]
    exact lastPosition?_map Instruction.uncounted_address target _
  rw [resolve, hposition]
  rfl

theorem successors_uncounted (s : Script) (i : Nat) :
    s.uncounted.successors i = s.successors i := by
  have hins : s.uncounted.instructions[i]? = (s.instructions[i]?).map (·.uncounted) :=
    Array.getElem?_map
  rw [successors, successors, hins]
  cases s.instructions[i]? with
  | none => rfl
  | some ins =>
    simp only [Option.map_some, successorsOf, resolve_uncounted, nameIsWritable_uncounted,
      Instruction.uncounted_text, Instruction.uncounted_address]
    rfl

/-! ## The search -/

section Search

variable {s : Script} {code : Array Instruction} {a : Arrival} {rest : List Arrival}
  {trail : List Nat}

theorem explore_linear (h : a.position < code.size) (hr : ¬ code[a.position].reachable)
    (hlinear : flowKind code[a.position].text = .linear) :
    s.explore code (a :: rest) trail =
      s.explore (code.set a.position (a.mark code[a.position]).enter h)
        ([.fall (a.position + 1)] ++ rest) (a.position :: trail) := by
  rw [explore, dif_pos h]
  exact (dif_neg hr).trans (if_pos hlinear)

theorem explore_targets {targets : List Nat} (h : a.position < code.size)
    (hr : ¬ code[a.position].reachable) (hlinear : flowKind code[a.position].text ≠ .linear)
    (htargets : s.successors a.position = .ok targets) :
    s.explore code (a :: rest) trail =
      s.explore (code.set a.position (a.mark code[a.position]).enter h)
        (targets.map .jump ++ rest) (a.position :: trail) := by
  rw [explore, dif_pos h]
  refine (dif_neg hr).trans ((if_neg hlinear).trans ?_)
  split
  · rename_i targets' htargets'
    rw [htargets] at htargets'
    cases htargets'
    rfl
  · rename_i e he
    rw [htargets] at he
    cases he

theorem explore_fault {e : Fault} (h : a.position < code.size)
    (hr : ¬ code[a.position].reachable) (hlinear : flowKind code[a.position].text ≠ .linear)
    (he : s.successors a.position = .error e) :
    s.explore code (a :: rest) trail =
      ⟨code.set a.position (a.mark code[a.position]).enter h,
        (a.position :: trail).reverse, some e⟩ := by
  rw [explore, dif_pos h]
  refine (dif_neg hr).trans ((if_neg hlinear).trans ?_)
  split
  · rename_i targets htargets
    rw [he] at htargets
    cases htargets
  · rename_i e' he'
    rw [he] at he'
    cases he'
    rfl

end Search

/-- A search goes through changed code as it goes through the code, if the change leaves what the
search looks at and the successors are the same. A fault may come out otherwise worded. -/
theorem explore_map {s s' : Script} {change : Instruction → Instruction} {reword : Fault → Fault}
    (h : Instruction.KeepsFlow change)
    (hsuccessors : ∀ i, s'.successors i = (s.successors i).mapError reword)
    (code : Array Instruction) (agenda : List Arrival) (trail : List Nat) :
    s'.explore (code.map change) agenda trail =
      (s.explore code agenda trail).map change reword := by
  fun_induction Script.explore s code agenda trail with
  | case1 code => rw [explore_nil]; rfl
  | case2 code trail a rest hi ins hr ih =>
    rw [explore_visited _ (by simpa using hi) (by simpa [h.reachable] using hr), ← ih]
    simp [h.mark, ins]
  | case3 code trail a rest hi ins hr entered trail' hlinear ih =>
    rw [explore_linear (by simpa using hi) (by simpa [h.reachable] using hr)
      (by simpa [h.text] using hlinear), ← ih]
    simp [h.mark, h.enter, ins, entered, trail']
  | case4 code trail a rest hi ins hr entered trail' hlinear targets htargets ih =>
    have htargets' : s'.successors a.position = .ok targets := by
      rw [hsuccessors, htargets]
      rfl
    rw [explore_targets (by simpa using hi) (by simpa [h.reachable] using hr)
      (by simpa [h.text] using hlinear) htargets', ← ih]
    simp [h.mark, h.enter, ins, entered, trail']
  | case5 code trail a rest hi ins hr entered trail' hlinear e htargets =>
    have htargets' : s'.successors a.position = .error (reword e) := by
      rw [hsuccessors, htargets]
      rfl
    rw [explore_fault (by simpa using hi) (by simpa [h.reachable] using hr)
      (by simpa [h.text] using hlinear) htargets']
    simp [h.mark, h.enter, ins, entered, trail', Exploration.map]
  | case6 code trail a rest hi ih =>
    rw [explore_past_end _ (by simpa using hi), ih]

theorem mapError_id {α : Type} (x : Except Fault α) : x.mapError id = x := by
  cases x with
  | ok a => rfl
  | error e => rfl

theorem explore_uncounted (s : Script) (code : Array Instruction) (agenda : List Arrival)
    (trail : List Nat) :
    s.uncounted.explore (code.map (·.uncounted)) agenda trail =
      (s.explore code agenda trail).uncounted := by
  have hsuccessors : ∀ i, s.uncounted.successors i = (s.successors i).mapError id := fun i =>
    (successors_uncounted s i).trans (mapError_id _).symm
  rw [explore_map Instruction.keepsFlow_uncounted hsuccessors, Exploration.map, Option.map_id]
  rfl

theorem search_uncounted (s : Script) : s.uncounted.search = s.search.uncounted :=
  s.explore_uncounted s.instructions [.jump 0] []

theorem analyze_uncounted (s : Script) : s.uncounted.analyze = s.analyze.map (·.uncounted) := by
  have hfault : s.uncounted.search.fault = s.search.fault := by
    rw [search_uncounted]
    rfl
  have hmarked : s.uncounted.marked = s.marked.uncounted := by
    rw [marked, search_uncounted]
    rfl
  rw [analyze, analyze, hfault, hmarked]
  cases s.search.fault with
  | none => rfl
  | some e => rfl

/-! ## The shape -/

theorem shape_uncounted (s : Script) : s.uncounted.shape = s.shape := by
  rw [shape, uncounted, Array.toList_map, List.map_map]
  rfl

/-- The record of the script has no marks. -/
def IsUnmarked (s : Script) : Prop := ∀ ins ∈ s.instructions.toList, ins.unmarked = ins

/-- Without counts and marks, the shape is all there is of a script. -/
theorem uncounted_eq_of_shape {s s' : Script} (h : s.IsUnmarked) (h' : s'.IsUnmarked)
    (hshape : s.shape = s'.shape) : s.uncounted = s'.uncounted := by
  have hcode : ∀ {t : Script}, t.IsUnmarked → t.uncounted.instructions.toList =
      t.shape.2.2.2.map fun (address, sourceLine, text) => { address, sourceLine, text } := by
    intro t ht
    rw [uncounted, Array.toList_map, shape, List.map_map]
    refine List.map_congr_left fun ins hins => ?_
    rw [← ht ins hins]
    rfl
  have hsame : s.uncounted.instructions = s'.uncounted.instructions := by
    rw [← Array.toList_inj, hcode h, hcode h', hshape]
  obtain ⟨hfile, hline, hentry, -⟩ : s.filename = s'.filename ∧ s.startLine = s'.startLine ∧
      s.entryIndex = s'.entryIndex ∧ _ := by
    simpa [shape] using hshape
  have hfields : ∀ t : Script, t.uncounted =
      ⟨t.filename, t.startLine, t.entryIndex, t.uncounted.instructions⟩ := fun _ => rfl
  rw [hfields s, hfields s', hfile, hline, hentry, hsame]

/-! ## Sums -/

/-- The count at a position, zero past the end. -/
def countAt (s : Script) (i : Nat) : Int := ((s.instructions[i]?).map (·.count)).getD 0

theorem uncounted_mergeCounts (s other : Script) :
    (s.mergeCounts other).uncounted = s.uncounted := by
  have hcode : (s.mergeCounts other).uncounted.instructions = s.uncounted.instructions := by
    refine Array.ext_getElem? fun i => ?_
    simp only [uncounted, mergeCounts, Array.getElem?_map, Array.getElem?_mapIdx, Option.map_map]
    refine Option.map_congr fun ins _ => ?_
    simp only [Function.comp_apply]
    cases other.instructions[i]? with
    | none => rfl
    | some more => rfl
  exact congrArg (fun code => { s with instructions := code }) hcode

theorem shape_mergeCounts (s other : Script) : (s.mergeCounts other).shape = s.shape := by
  rw [← shape_uncounted, uncounted_mergeCounts, shape_uncounted]

/-- Of two dumps of one length, the counts are added at every position. -/
theorem countAt_mergeCounts {s other : Script}
    (h : other.instructions.size = s.instructions.size) (i : Nat) :
    (s.mergeCounts other).countAt i = s.countAt i + other.countAt i := by
  simp only [countAt, mergeCounts, Array.getElem?_mapIdx, Option.map_map]
  by_cases hi : i < s.instructions.size
  · have hi' : i < other.instructions.size := h ▸ hi
    simp [Array.getElem?_eq_getElem hi, Array.getElem?_eq_getElem hi']
  · have hi' : ¬ i < other.instructions.size := h ▸ hi
    simp [Array.getElem?_eq_none (Nat.le_of_not_lt hi),
      Array.getElem?_eq_none (Nat.le_of_not_lt hi')]

theorem countAt_marked (s : Script) (i : Nat) : s.marked.countAt i = s.countAt i := by
  have hcount : ∀ code : Array Instruction,
      (code[i]?).map (·.count) = ((code[i]?).map (·.unmarked)).map (·.count) := by
    intro code
    rw [Option.map_map]
    rfl
  have hsame : (s.marked.instructions[i]?).map (·.unmarked) =
      (s.instructions[i]?).map (·.unmarked) := (search_gainsMarks s).unmarked i
  rw [countAt, countAt, hcount, hcount, hsame]

theorem shape_marked (s : Script) : s.marked.shape = s.shape := by
  have hcode : s.marked.instructions.toList.map (·.shape) =
      s.instructions.toList.map (·.shape) := by
    have hshape : ∀ (code : Array Instruction) (i : Nat), (code.toList.map (·.shape))[i]? =
        ((code[i]?).map (·.unmarked)).map (·.shape) := by
      intro code i
      rw [List.getElem?_map, Array.getElem?_toList, Option.map_map]
      rfl
    refine List.ext_getElem? fun i => ?_
    rw [hshape, hshape]
    exact congrArg _ ((search_gainsMarks s).unmarked i)
  exact congrArg (fun code => (s.filename, s.startLine, s.entryIndex, code)) hcode

end Script

end BytecodeCoverage
