-- SUMMARY: The search for the instructions of a script that control can reach.
import BytecodeCoverage.Script.Successors

/-!
# The search for reachable instructions

The search starts at the first instruction, not at the entry marker: what stands before the
marker, declarations for instance, runs into the entry and has to stay reachable. It follows
linear instructions forward. At any other instruction the successors are put on the agenda,
the first of them on top. An instruction that is marked reachable already is not entered again,
so the search ends, on code that loops too.

A jump to an address that the script does not have ends the search. The marks made so far stay.
-/

namespace BytecodeCoverage

/-- How the search comes to a position. -/
inductive Arrival where
  /-- By a jump, or as the start of the script. -/
  | jump (position : Nat)
  /-- From the linear instruction before it. -/
  | fall (position : Nat)
  deriving Repr, DecidableEq

namespace Arrival

def position : Arrival → Nat
  | .jump i => i
  | .fall i => i

/-- The mark that an arrival leaves. -/
def mark (a : Arrival) (ins : Instruction) : Instruction :=
  match a with
  | .jump _ => { ins with entryTarget := true }
  | .fall _ => ins

@[simp] theorem mark_reachable (a : Arrival) (ins : Instruction) :
    (a.mark ins).reachable = ins.reachable := by
  cases a <;> rfl

end Arrival

/-- Mark an instruction as one that control reaches. -/
def Instruction.enter (ins : Instruction) : Instruction :=
  { ins with reachable := true, fallsThrough := ins.fallsThrough || flowKind ins.text = .linear }

/-- What a search leaves behind. -/
structure Exploration where
  instructions : Array Instruction
  /-- The positions in the order in which they were entered. -/
  trail : List Nat
  fault : Option Fault
  deriving Repr, DecidableEq

/-- How many instructions have not been entered. -/
def unentered (code : Array Instruction) : Nat := code.countP (!·.reachable)

theorem unentered_set {code : Array Instruction} {i : Nat} (h : i < code.size)
    (ins : Instruction) :
    unentered (code.set i ins h) + (if code[i].reachable then 0 else 1) =
      unentered code + (if ins.reachable then 0 else 1) := by
  have hpos : code[i].reachable = false → 0 < code.countP (!·.reachable) := fun hr =>
    Array.countP_pos_iff.2 ⟨code[i], Array.getElem_mem h, by simp [hr]⟩
  unfold unentered
  rw [Array.countP_set h]
  cases hold : code[i].reachable
  · cases ins.reachable <;> simp [Nat.sub_add_cancel (hpos hold)]
  · cases ins.reachable <;> simp

theorem unentered_set_mark {code : Array Instruction} {a : Arrival} (h : a.position < code.size) :
    unentered (code.set a.position (a.mark code[a.position]) h) = unentered code := by
  have := unentered_set h (a.mark code[a.position])
  simp only [Arrival.mark_reachable] at this
  omega

theorem unentered_set_enter {code : Array Instruction} {a : Arrival} (h : a.position < code.size)
    (hr : ¬code[a.position].reachable) :
    unentered (code.set a.position (a.mark code[a.position]).enter h) < unentered code := by
  have := unentered_set h (a.mark code[a.position]).enter
  have henter : (a.mark code[a.position]).enter.reachable = true := rfl
  rw [if_neg hr, if_pos henter] at this
  omega

namespace Script

/-- How many positions control can move to from a position. -/
def fanOut (s : Script) (i : Nat) : Nat :=
  match s.successors i with
  | .ok targets => targets.length
  | .error _ => 0

/-- The greatest fan-out of the script. -/
def breadth (s : Script) : Nat :=
  (List.range s.instructions.size).foldr (fun i widest => max (s.fanOut i) widest) 0

theorem fanOut_le_breadth (s : Script) (i : Nat) : s.fanOut i ≤ s.breadth := by
  have hmem : ∀ positions : List Nat, i ∈ positions →
      s.fanOut i ≤ positions.foldr (fun i widest => max (s.fanOut i) widest) 0 := by
    intro positions
    induction positions with
    | nil => simp
    | cons j positions ih =>
      intro hi
      simp only [List.foldr_cons]
      rcases List.mem_cons.1 hi with rfl | hi
      · exact Nat.le_max_left _ _
      · exact Nat.le_trans (ih hi) (Nat.le_max_right _ _)
  by_cases h : i < s.instructions.size
  · exact hmem _ (List.mem_range.2 h)
  · simp [fanOut, successors, Array.getElem?_eq_none (Nat.le_of_not_lt h)]

theorem length_le_breadth {s : Script} {i : Nat} {targets : List Nat}
    (h : s.successors i = .ok targets) : targets.length ≤ s.breadth := by
  simpa [fanOut, h] using s.fanOut_le_breadth i

/-- A bound on what is left to do: each entering puts at most so much on the agenda. -/
def effort (s : Script) (code : Array Instruction) (agenda : List Arrival) : Nat :=
  unentered code * (s.breadth + 2) + agenda.length

theorem effort_lt_of_enter {s : Script} {entered code : Array Instruction} {a : Arrival}
    {next rest : List Arrival} (h : unentered entered < unentered code)
    (hnext : next.length ≤ s.breadth + 1) :
    s.effort entered (next ++ rest) < s.effort code (a :: rest) := by
  have hmul := Nat.mul_le_mul_right (s.breadth + 2) h
  rw [Nat.succ_mul] at hmul
  simp only [effort, List.length_append, List.length_cons]
  omega

/-- Follow the agenda to its end, or to the first jump that does not resolve. -/
def explore (s : Script) (code : Array Instruction) (agenda : List Arrival) (trail : List Nat) :
    Exploration :=
  match agenda with
  | [] => ⟨code, trail.reverse, none⟩
  | a :: rest =>
    if h : a.position < code.size then
      let ins := code[a.position]
      if hr : ins.reachable then
        s.explore (code.set a.position (a.mark ins) h) rest trail
      else
        let entered := code.set a.position (a.mark ins).enter h
        let trail := a.position :: trail
        if flowKind ins.text = .linear then
          s.explore entered ([.fall (a.position + 1)] ++ rest) trail
        else
          match htargets : s.successors a.position with
          | .ok targets => s.explore entered (targets.map .jump ++ rest) trail
          | .error e => ⟨entered, trail.reverse, some e⟩
    else s.explore code rest trail
  termination_by s.effort code agenda
  decreasing_by
  · simp [effort, unentered_set_mark h]
  · exact effort_lt_of_enter (unentered_set_enter h hr) (by simp)
  · refine effort_lt_of_enter (unentered_set_enter h hr) ?_
    simpa using Nat.le_succ_of_le (length_le_breadth htargets)
  · simp [effort]

/-- Search the script from its first instruction. -/
def search (s : Script) : Exploration := s.explore s.instructions [.jump 0] []

/-- The script with the marks of the search. -/
def marked (s : Script) : Script := { s with instructions := s.search.instructions }

/-- The marked script, if every jump that was reached resolves. -/
def analyze (s : Script) : Except Fault Script :=
  match s.search.fault with
  | none => .ok s.marked
  | some e => .error e

end Script

end BytecodeCoverage
