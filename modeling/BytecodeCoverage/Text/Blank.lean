-- SUMMARY: White space, the characters that separate the fields of a trace line.
import BytecodeCoverage.Text.CodeRange

/-!
# White space

A trace separates its fields by white space in the Unicode sense, to which the four
information separators U+001C to U+001F are counted. The zero width space is no white space.
-/

namespace BytecodeCoverage.Text

def blankRanges : List CodeRange :=
  [(0x0009, 0x000D), (0x001C, 0x0020), (0x0085, 0x0085), (0x00A0, 0x00A0), (0x1680, 0x1680),
   (0x2000, 0x200A), (0x2028, 0x2029), (0x202F, 0x202F), (0x205F, 0x205F), (0x3000, 0x3000)]

def isBlank (c : Char) : Bool := inRanges blankRanges c

/-- Blanks before and after a text do not belong to it. -/
def stripBlanks (cs : List Char) : List Char :=
  ((cs.dropWhile isBlank).reverse.dropWhile isBlank).reverse

theorem isBlank_of_isWhitespace {c : Char} (h : c.isWhitespace = true) : isBlank c = true := by
  simp only [Char.isWhitespace, Bool.or_eq_true, decide_eq_true_eq] at h
  rcases h with ((rfl | rfl) | rfl) | rfl <;> decide

/-- What is left of a text without the blanks around it does not begin with a blank. -/
theorem isBlank_of_stripBlanks_eq_cons {cs rest : List Char} {c : Char}
    (h : stripBlanks cs = c :: rest) : isBlank c = false := by
  have hprefix : c :: rest <+: cs.dropWhile isBlank := by
    rw [← h, stripBlanks, ← List.reverse_suffix, List.reverse_reverse]
    exact List.dropWhile_suffix isBlank
  obtain ⟨more, hmore⟩ := hprefix
  have hhead := List.head?_dropWhile_not isBlank cs
  rw [← hmore] at hhead
  exact hhead

end BytecodeCoverage.Text
