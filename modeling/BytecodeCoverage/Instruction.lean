-- SUMMARY: Instructions of a script, with their counts and the marks of the reachability search.
import BytecodeCoverage.Decimal.Numeral

/-!
# Instructions

An instruction is what one line of a record says, with its continuation lines, and the marks
that the search for reachable instructions leaves on it.
-/

namespace BytecodeCoverage

structure Instruction where
  address : Int
  sourceLine : Int
  text : String
  count : Int := 0
  /-- Control can get here from the start of the script. -/
  reachable : Bool := false
  /-- Control goes on to the next instruction and nowhere else. -/
  fallsThrough : Bool := false
  /-- Some jump, or the start of the script, leads here. -/
  entryTarget : Bool := false
  deriving Repr, DecidableEq, Inhabited

namespace Instruction

/-- What tells instructions apart: neither the count nor the marks. -/
def shape (ins : Instruction) : Int × Int × String := (ins.address, ins.sourceLine, ins.text)

/-- The shape as a line of text. -/
def signatureLine (ins : Instruction) : String :=
  toString ins.address ++ ":" ++ toString ins.sourceLine ++ ":" ++ ins.text

def isWritable (ins : Instruction) : Bool :=
  Numeral.isWritable ins.address && Numeral.isWritable ins.sourceLine

end Instruction

/-- The last position of an address among some instructions. -/
def lastPosition? (address : Int) : List Instruction → Option Nat
  | [] => none
  | ins :: rest =>
    match lastPosition? address rest with
    | some i => some (i + 1)
    | none => if ins.address = address then some 0 else none

theorem lastPosition?_eq_none_iff {address : Int} {code : List Instruction} :
    lastPosition? address code = none ↔ ∀ ins ∈ code, ins.address ≠ address := by
  induction code with
  | nil => simp [lastPosition?]
  | cons ins code ih =>
    simp only [lastPosition?]
    cases h : lastPosition? address code with
    | none => simp_all
    | some i => simp_all

theorem lastPosition?_eq_some {address : Int} {code : List Instruction} {i : Nat}
    (h : lastPosition? address code = some i) :
    ∃ ins, code[i]? = some ins ∧ ins.address = address := by
  induction code generalizing i with
  | nil => simp [lastPosition?] at h
  | cons ins code ih =>
    simp only [lastPosition?] at h
    cases hrest : lastPosition? address code with
    | some j =>
      simp only [hrest, Option.some.injEq] at h
      subst h
      simpa using ih hrest
    | none =>
      simp only [hrest, Option.ite_none_right_eq_some, Option.some.injEq] at h
      exact ⟨ins, by simp [← h.2], h.1⟩

end BytecodeCoverage
