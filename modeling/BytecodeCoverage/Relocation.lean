-- SUMMARY: Moving traced coordinates back to where the source is.

/-!
# Relocations

The file and line that a trace names need not be those of the source: a preprocessor may have
moved the file and put lines before it. A relocation says where a traced line really is.
-/

namespace BytecodeCoverage

/-- From a traced file and line to those of the source. -/
abbrev Relocation := String → Int → String × Int

/-- The trace names the source itself. -/
def Relocation.identity : Relocation := fun file line => (file, line)

end BytecodeCoverage
