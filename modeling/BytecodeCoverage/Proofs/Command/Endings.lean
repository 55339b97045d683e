-- SUMMARY: How the command ends: with a report, with status 1, or by breaking off.
import BytecodeCoverage.Proofs.Command.Traces
import BytecodeCoverage.Proofs.Settings.Unforeseen

/-!
# Endings

Settings that are wrong in a way that was foreseen end the command with status 1, and so do traces
with jumps that lead nowhere. The command breaks off over settings that nobody foresaw, but also over
what settings make of traces: lines that they move too far down, and counts that are too long to be
announced or reported.
-/

namespace BytecodeCoverage

/-! ## Settings -/

namespace Command

variable {machine : Machine} {files : Files} {o : Options}

end Command

/-! ## Reports -/

namespace Json

end Json

namespace FileSnapshot

variable {s : FileSnapshot}

end FileSnapshot

namespace Command

end Command

/-! ## The command -/

namespace Command

variable {machine : Machine} {g : Grammar} {files : Files} {o : Options} {typed texts : List String}

end Command

end BytecodeCoverage
