-- SUMMARY: A typed line that is not blank has a first word, and that word says whether to quit.
import BytecodeCoverage.Proofs.Script.Faults
import BytecodeCoverage.Shell.Request

/-!
# Requests

A line that can be cut into words has a first one, unless it is blank. The command is told by it.
-/

namespace BytecodeCoverage

namespace Request

/-! ## First words -/

/-- The words of a typed line. -/
def wordsOf (line : String) : Except Words.Fault (List String) :=
  Words.split (String.ofList (Text.stripBlanks line.toList))

/-- The first word of a typed line, if the line can be cut into words. -/
def firstWord? (line : String) : Option String := (wordsOf line).toOption.bind (·.head?)

/-- A line without words is blank. -/
theorem blank_of_wordsOf {line : String} (h : wordsOf line = .ok []) :
    Text.stripBlanks line.toList = [] := stripBlanks_of_split rfl h

/-- What a line asks for, by its words. -/
theorem ofLine_eq (line : String) :
    ofLine line =
      match wordsOf line with
      | .error fault => .unreadable fault
      | .ok [] => .nothing
      | .ok (name :: arguments) => ofWords name arguments := by
  unfold ofLine
  split
  · rename_i hline
    rw [wordsOf, hline]
    rfl
  · rename_i c rest hline
    have hwordsOf : wordsOf line = Words.split (String.ofList (c :: rest)) := by
      rw [wordsOf, hline]
    rw [hwordsOf]
    split
    · rename_i fault hwords
      rw [hwords]
    · rename_i hwords
      exact absurd (stripBlanks_of_split hline hwords) (List.cons_ne_nil c rest)
    · rename_i name arguments hwords
      rw [hwords]

theorem ofWords_eq_quit_iff {name : String} {arguments : List String} :
    ofWords name arguments = .quit ↔ name ∈ quitNames := by
  unfold ofWords
  constructor
  · intro h
    repeat' split at h
    all_goals first | assumption | cases h
  · exact fun h => if_pos h

theorem ofLine_eq_quit_iff {line : String} :
    ofLine line = .quit ↔ ∃ name ∈ quitNames, firstWord? line = some name := by
  rw [ofLine_eq, firstWord?]
  cases wordsOf line with
  | error fault => simp [Except.toOption]
  | ok words =>
    cases words with
    | nil => simp [Except.toOption]
    | cons name arguments => simp [Except.toOption, ofWords_eq_quit_iff]

end Request

end BytecodeCoverage
