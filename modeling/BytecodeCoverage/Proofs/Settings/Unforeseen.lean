-- SUMMARY: Settings files that nobody foresaw: nested too deep, or with parts of the wrong kind.
import BytecodeCoverage.Proofs.Script.Faults
import BytecodeCoverage.Settings.DialectSettings
import BytecodeCoverage.Settings.SourceMap

/-!
# Unforeseen settings

Most of what can be wrong with settings is reported. A file of dialect settings escapes that only if
it is nested too deep. A source map escapes also if it is no object, if its parts are of the wrong
kind, or if the first offset that cannot be converted is neither a number nor a text.

Half of a pair of surrogates is apart from both. No text here can hold it, so the reading ends with
it, but whether it does any harm shows only where it would be written.
-/

namespace BytecodeCoverage

namespace Escapes

variable {ε α β : Type} {isForeseen : ε → Bool} {x : Except ε α} {f : α → Except ε β}

end Escapes

variable {bytes : List UInt8} {depth : Nat}

namespace Dialect

end Dialect

/-! ## Source maps -/

namespace SourceMap

/-- A setting of an object, which says nothing if it is missing. -/
def setting (fields : List (String × Json)) (key : String) : Json := (fields.lookup key).getD .null

end SourceMap

end BytecodeCoverage
