-- SUMMARY: The settings of a trace's grammar.

/-!
# Trace dialects

Interpreters differ in a few words of their dumps. A dialect says which records belong to the
interpreter itself and not to a program, which line marks a script's entry, which mnemonics
carry a nested function body instead of an operand, and which mnemonic ends a top-level unit.
-/

namespace BytecodeCoverage

structure Dialect where
  /-- Header lines of records that are dropped: the bootstrap script and inline evaluations. -/
  sentinelHeaders : List String :=
    ["--- SCRIPT (null):0 ---", "--- SCRIPT :0 ---", "--- SCRIPT -e:1 ---"]
  entryMarker : String := "main:"
  placeholderMnemonics : List String := ["lambda", "deflocalfun"]
  haltMnemonic : String := "stop"
  deriving Repr, DecidableEq

/-- The text of an instruction, cut down to its mnemonic if that is a placeholder. -/
def Dialect.instructionText (d : Dialect) (text : String) : String :=
  (d.placeholderMnemonics.find? fun mnemonic =>
    (mnemonic.toList ++ [' ']).isPrefixOf text.toList).getD text

end BytecodeCoverage
