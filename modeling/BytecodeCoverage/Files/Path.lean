-- SUMMARY: Paths of files, as text and as steps.
import BytecodeCoverage.Text.Scan

/-!
# Paths

A path is cut at its slashes. Empty steps and steps that stay where they are do not count, but a
step up does, since what it leads to depends on the steps before it. Two slashes in front, and no
more than two, are kept as they are.
-/

namespace BytecodeCoverage

structure Path where
  /-- The slashes in front: none, one or two. -/
  root : String := ""
  steps : List String := []
  deriving Repr, DecidableEq

namespace Path

def rootOf (slashes : Nat) : String :=
  if slashes = 0 then "" else if slashes = 2 then "//" else "/"

def ofText (text : String) : Path :=
  let cs := text.toList
  let (first, more) := Text.pieces '/' cs
  { root := rootOf (cs.takeWhile (· = '/')).length
    steps := ((first :: more).map String.ofList).filter fun step => step ≠ "" ∧ step ≠ "." }

def text (p : Path) : String :=
  if p.root = "" ∧ p.steps = [] then "." else p.root ++ Text.joinWith "/" p.steps

end Path

end BytecodeCoverage
