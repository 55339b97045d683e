-- SUMMARY: Padding text to the width of a column.

/-!
# Columns

Widths count characters. Text that is wider than its column is not cut.
-/

namespace BytecodeCoverage.Text

def blanksFor (width : Nat) (text : String) : String :=
  String.ofList (List.replicate (width - text.length) ' ')

/-- The text at the left of its column. -/
def padRight (width : Nat) (text : String) : String := text ++ blanksFor width text

/-- The text at the right of its column. -/
def padLeft (width : Nat) (text : String) : String := blanksFor width text ++ text

theorem length_padRight (width : Nat) (text : String) :
    (padRight width text).length = max width text.length := by
  simp [padRight, blanksFor, String.length_append]
  omega

theorem length_padLeft (width : Nat) (text : String) :
    (padLeft width text).length = max width text.length := by
  simp [padLeft, blanksFor, String.length_append]
  omega

end BytecodeCoverage.Text
