-- SUMMARY: The marks on the instructions of a script, and how code gains marks during a search.
import BytecodeCoverage.Script.Search

/-!
# Marks

A search changes nothing of an instruction but its three marks, and it only adds marks. Both
facts are said here once, for one instruction and for all the code of a script.
-/

namespace BytecodeCoverage

inductive Mark where
  | reachable
  | fallsThrough
  | entryTarget

/-! ## One instruction -/

namespace Instruction

def has (ins : Instruction) : Mark → Bool
  | .reachable => ins.reachable
  | .fallsThrough => ins.fallsThrough
  | .entryTarget => ins.entryTarget

/-- The instruction as the record gives it. -/
def unmarked (ins : Instruction) : Instruction :=
  { ins with reachable := false, fallsThrough := false, entryTarget := false }

/-- The second instruction is the first, perhaps with more marks. -/
structure Gains (ins now : Instruction) : Prop where
  unmarked : now.unmarked = ins.unmarked
  has : ∀ m, ins.has m → now.has m

namespace Gains

theorem refl (ins : Instruction) : ins.Gains ins := ⟨rfl, fun _ h => h⟩

theorem trans {a b c : Instruction} (hab : a.Gains b) (hbc : b.Gains c) : a.Gains c :=
  ⟨hbc.unmarked.trans hab.unmarked, fun m h => hbc.has m (hab.has m h)⟩

theorem mark (a : Arrival) (ins : Instruction) : ins.Gains (a.mark ins) := by
  cases a with
  | jump i =>
    refine ⟨rfl, ?_⟩
    intro m h
    cases m with
    | reachable => exact h
    | fallsThrough => exact h
    | entryTarget => rfl
  | fall i => exact refl ins

theorem enter (ins : Instruction) : ins.Gains ins.enter := by
  refine ⟨rfl, ?_⟩
  intro m h
  cases m with
  | reachable => rfl
  | fallsThrough =>
    have hfalls : ins.fallsThrough = true := h
    simp [Instruction.has, Instruction.enter, hfalls]
  | entryTarget => exact h

theorem text {ins now : Instruction} (h : ins.Gains now) : now.text = ins.text := by
  have htext : now.unmarked.text = ins.unmarked.text := by rw [h.unmarked]
  exact htext

end Gains

end Instruction

/-! ## Code -/

/-- The instruction at a position has a mark. There is none past the end. -/
def Marked (code : Array Instruction) (m : Mark) (i : Nat) : Prop :=
  ∃ ins, code[i]? = some ins ∧ ins.has m

theorem Marked.lt_size {code : Array Instruction} {m : Mark} {i : Nat} (h : Marked code m i) :
    i < code.size := by
  obtain ⟨ins, hins, _⟩ := h
  exact (Array.getElem?_eq_some_iff.1 hins).1

theorem not_marked_of_forall {code : Array Instruction} {m : Mark}
    (h : ∀ ins ∈ code, ins.has m = false) (i : Nat) : ¬ Marked code m i := by
  rintro ⟨ins, hins, hm⟩
  rw [h ins (Array.mem_of_getElem? hins)] at hm
  cases hm

theorem marked_getElem {code : Array Instruction} {m : Mark} {i : Nat} (h : i < code.size) :
    Marked code m i ↔ code[i].has m := by
  simp [Marked, Array.getElem?_eq_getElem h]

theorem marked_set {code : Array Instruction} {m : Mark} {i j : Nat} (h : i < code.size)
    (ins : Instruction) :
    Marked (code.set i ins h) m j ↔ if i = j then ins.has m = true else Marked code m j := by
  unfold Marked
  rw [Array.getElem?_set]
  split
  · simp
  · rfl

/-- An arrival marks the targets of jumps, and nothing else. -/
theorem marked_set_mark {code : Array Instruction} {a : Arrival} (h : a.position < code.size)
    (m : Mark) (j : Nat) :
    Marked (code.set a.position (a.mark code[a.position]) h) m j ↔
      Marked code m j ∨ m = .entryTarget ∧ a = .jump j := by
  rw [marked_set h]
  split
  · rename_i hj
    subst hj
    rw [marked_getElem h]
    cases a with
    | jump i => cases m <;> simp [Instruction.has, Arrival.mark, Arrival.position]
    | fall i => simp [Arrival.mark]
  · rename_i hj
    have hne : a ≠ .jump j := fun ha => hj (by rw [ha]; rfl)
    simp [hne]

/-- Entering an instruction marks it as reachable, and as falling through if it is linear. -/
theorem marked_set_enter {code : Array Instruction} {a : Arrival} (h : a.position < code.size)
    (m : Mark) (j : Nat) :
    Marked (code.set a.position (a.mark code[a.position]).enter h) m j ↔
      Marked (code.set a.position (a.mark code[a.position]) h) m j ∨
        a.position = j ∧
          (m = .reachable ∨ m = .fallsThrough ∧ flowKind code[a.position].text = .linear) := by
  rw [marked_set h, marked_set h]
  split
  · rename_i hj
    subst hj
    have htext : (a.mark code[a.position]).text = code[a.position].text :=
      (Instruction.Gains.mark a _).text
    cases m <;> simp [Instruction.has, Instruction.enter, htext]
  · rename_i hj
    simp [hj]

/-- The second code is the first, perhaps with more marks. -/
structure GainsMarks (code now : Array Instruction) : Prop where
  size : now.size = code.size
  gains : ∀ (i : Nat) (ins : Instruction), code[i]? = some ins →
    ∃ ins', now[i]? = some ins' ∧ ins.Gains ins'

namespace GainsMarks

variable {code now : Array Instruction}

theorem refl (code : Array Instruction) : GainsMarks code code :=
  ⟨rfl, fun _ ins h => ⟨ins, h, .refl ins⟩⟩

theorem trans {later : Array Instruction} (h : GainsMarks code now) (h' : GainsMarks now later) :
    GainsMarks code later := by
  refine ⟨h'.size.trans h.size, ?_⟩
  intro i ins hins
  obtain ⟨ins', hins', hg⟩ := h.gains i ins hins
  obtain ⟨ins'', hins'', hg'⟩ := h'.gains i ins' hins'
  exact ⟨ins'', hins'', hg.trans hg'⟩

theorem set {i : Nat} {ins : Instruction} (h : i < code.size) (hg : code[i].Gains ins) :
    GainsMarks code (code.set i ins h) := by
  refine ⟨by simp, ?_⟩
  intro j old hold
  rw [Array.getElem?_set]
  split
  · rename_i hij
    subst hij
    obtain ⟨_, rfl⟩ := Array.getElem?_eq_some_iff.1 hold
    exact ⟨ins, rfl, hg⟩
  · exact ⟨old, hold, .refl old⟩

theorem marked {m : Mark} {i : Nat} (h : GainsMarks code now) (hm : Marked code m i) :
    Marked now m i := by
  obtain ⟨ins, hins, hhas⟩ := hm
  obtain ⟨ins', hins', hg⟩ := h.gains i ins hins
  exact ⟨ins', hins', hg.has m hhas⟩

theorem unmarked (h : GainsMarks code now) (i : Nat) :
    (now[i]?).map (·.unmarked) = (code[i]?).map (·.unmarked) := by
  by_cases hi : i < code.size
  · obtain ⟨ins', hins', hg⟩ := h.gains i code[i] (Array.getElem?_eq_getElem hi)
    rw [hins', Array.getElem?_eq_getElem hi]
    exact congrArg some hg.unmarked
  · rw [Array.getElem?_eq_none (Nat.le_of_not_lt hi),
      Array.getElem?_eq_none (h.size ▸ Nat.le_of_not_lt hi)]

theorem text {i : Nat} (h : GainsMarks code now) (hi : i < code.size) (hi' : i < now.size) :
    now[i].text = code[i].text := by
  obtain ⟨ins', hins', hg⟩ := h.gains i code[i] (Array.getElem?_eq_getElem hi)
  obtain ⟨_, rfl⟩ := Array.getElem?_eq_some_iff.1 hins'
  exact hg.text

end GainsMarks

/-- A search only adds marks. -/
theorem Script.explore_gainsMarks (s : Script) (code : Array Instruction) (agenda : List Arrival)
    (trail : List Nat) : GainsMarks code (s.explore code agenda trail).instructions := by
  fun_induction Script.explore s code agenda trail with
  | case1 code => exact .refl code
  | case2 code trail a rest h ins hr ih => exact (GainsMarks.set h (.mark a ins)).trans ih
  | case3 code trail a rest h ins hr entered trail' hlinear ih =>
    exact (GainsMarks.set h ((Instruction.Gains.mark a ins).trans (.enter _))).trans ih
  | case4 code trail a rest h ins hr entered trail' hlinear targets htargets ih =>
    exact (GainsMarks.set h ((Instruction.Gains.mark a ins).trans (.enter _))).trans ih
  | case5 code trail a rest h ins hr entered trail' hlinear e htargets =>
    exact GainsMarks.set h ((Instruction.Gains.mark a ins).trans (.enter _))
  | case6 code trail a rest h ih => exact ih

end BytecodeCoverage
