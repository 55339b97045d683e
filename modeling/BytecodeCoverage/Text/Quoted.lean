-- SUMMARY: Text in quotation marks, with everything that does not print escaped.
import BytecodeCoverage.Decimal.Hex
import BytecodeCoverage.Text.Printable

/-!
# Quoted text

Messages quote the texts that they mention. Single quotes are used unless the text holds one and
holds no double quote. The quote and the backslash are escaped, and so is every character that
is not printable, in the shortest of the three numbered forms.
-/

namespace BytecodeCoverage.Text

/-- The quote to be used around a text. -/
def quoteMark (cs : List Char) : Char :=
  if '\'' ∈ cs ∧ '"' ∉ cs then '"' else '\''

/-- A character as it is written between quotes. -/
def escapeChar (mark c : Char) : List Char :=
  if c = mark ∨ c = '\\' then ['\\', c]
  else if c = '\n' then ['\\', 'n']
  else if c = '\r' then ['\\', 'r']
  else if c = '\t' then ['\\', 't']
  else if isPrintable c then [c]
  else if c.toNat < 0x100 then '\\' :: 'x' :: hexDigits 2 c.toNat
  else if c.toNat < 0x10000 then '\\' :: 'u' :: hexDigits 4 c.toNat
  else '\\' :: 'U' :: hexDigits 8 c.toNat

def quoteChars (cs : List Char) : List Char :=
  quoteMark cs :: (cs.flatMap (escapeChar (quoteMark cs)) ++ [quoteMark cs])

def quote (text : String) : String := String.ofList (quoteChars text.toList)

end BytecodeCoverage.Text
