-- SUMMARY: Cutting text into lines.
import BytecodeCoverage.Text.Scan

/-!
# Lines

Trace text is cut at every newline, and a carriage return at the end of a line is dropped, so
both line ends that are in use read alike. Files are read with every kind of line end turned
into a newline first.
-/

namespace BytecodeCoverage.Text

/-- The text without one carriage return at its end. -/
def dropFinalReturn (cs : List Char) : List Char :=
  if cs.getLast? = some '\r' then cs.dropLast else cs

/-- The lines of a text. A text that ends in a newline has an empty last line. -/
def splitLines (text : String) : List String :=
  let (first, more) := pieces '\n' text.toList
  (first :: more).map fun line => String.ofList (dropFinalReturn line)

/-- Makes a newline of each carriage return, with the newline after it if there is one. -/
def unifyNewlines (cs : List Char) : List Char :=
  (cs.foldr
    (fun c (done, beforeNewline) =>
      if c = '\r' then (if beforeNewline then done else '\n' :: done, false)
      else (c :: done, c = '\n'))
    ([], false)).1

end BytecodeCoverage.Text
