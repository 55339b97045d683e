-- SUMMARY: A trace may come in pieces, and its lines may end either way.
import BytecodeCoverage.Proofs.Session.Texts
import BytecodeCoverage.Proofs.Text.Joining

/-!
# Traces in pieces

Cutting into lines turns a newline between two texts into a boundary between their lines, and a
session keeps the record that is open from one text to the next. So it does not matter for a trace
how often it is cut at a newline, nor where. A piece that fails ends the reading like the line of
it that fails.
-/

namespace BytecodeCoverage.Session

variable {g : Grammar} {s s' s'' : Session}

/-- Take texts one after another, up to the first that fails. -/
def parseEach (g : Grammar) : Session → List String → Session × Option Fault
  | s, [] => (s, none)
  | s, text :: rest =>
    match s.parse g text with
    | (s', none) => s'.parseEach g rest
    | (s', some e) => (s', some e)

/-- The piece before a newline is read first, and what is after it from where that has led. -/
theorem parse_append (g : Grammar) (s : Session) (first second : String) :
    s.parse g (first ++ "\n" ++ second) =
      match s.parse g first with
      | (s', none) => s'.parse g second
      | (s', some e) => (s', some e) := by
  have hlines : s.parse g (first ++ "\n" ++ second) =
      s.addLines g (Text.splitLines first ++ Text.splitLines second) := by
    rw [parse, Text.splitLines_append]
  rw [hlines]
  rcases hfirst : s.parse g first with ⟨s', _ | e⟩
  · exact addLines_append hfirst
  · exact addLines_append_of_error hfirst

/-- Any number of pieces, of which there is one at least, are read like the text that they make. -/
theorem parse_joinWith (g : Grammar) (s : Session) {texts : List String} (h : texts ≠ []) :
    s.parse g (Text.joinWith "\n" texts) = s.parseEach g texts := by
  match texts with
  | [] => contradiction
  | [text] =>
    rw [Text.joinWith_singleton, parseEach]
    rcases s.parse g text with ⟨s', _ | e⟩
    · rfl
    · rfl
  | text :: next :: rest =>
    rw [Text.joinWith_cons_cons, parse_append, parseEach]
    rcases s.parse g text with ⟨s', _ | e⟩
    · exact parse_joinWith g s' (List.cons_ne_nil next rest)
    · rfl

/-- Lines make the same trace whichever of the two line ends joins them. -/
theorem parse_lineEnds (g : Grammar) (s : Session) {lines : List String}
    (h : ∀ line ∈ lines, '\n' ∉ line.toList ∧ line.toList.getLast? ≠ some '\r') :
    s.parse g (Text.joinWith "\r\n" lines) = s.parse g (Text.joinWith "\n" lines) := by
  cases lines with
  | nil => rfl
  | cons line rest =>
    have hlines := List.cons_ne_nil line rest
    rw [parse, parse, Text.splitLines_joinWith (.inr rfl) hlines h,
      Text.splitLines_joinWith (.inl rfl) hlines h]

/-- A trace that is read in two pieces leaves the session that the whole of it leaves, wherever the
newline stands that parts them, and either line end gives the same. -/
theorem parse_piecewise (g : Grammar) (s : Session) :
    (∀ (first second : String) (s' s'' : Session), s.parse g first = (s', none) →
      s'.parse g second = (s'', none) →
        s.parse g (first ++ "\n" ++ second) = (s'', none)) ∧
    ∀ lines : List String,
      (∀ line ∈ lines, '\n' ∉ line.toList ∧ line.toList.getLast? ≠ some '\r') →
        s.parse g (Text.joinWith "\r\n" lines) = s.parse g (Text.joinWith "\n" lines) := by
  constructor
  · intro first second s' s'' hfirst hsecond
    rw [parse_append, hfirst]
    exact hsecond
  · intro lines hlines
    exact parse_lineEnds g s hlines

/-- A record up to a switch of it, and from the cases of that switch on. -/
def beforeCases : String := "--- SCRIPT a.js:1 ---\r\n0:1/0/0 x 1 tableswitch defaultOffset 1\r"

def fromCases : String := "\t0: 1\n1:4/0/0 x 2 stop\n--- END SCRIPT ---"

theorem parse_piecewise_cases :
    (parse {} {} beforeCases).2 = none ∧ (parse {} {} beforeCases).1.reader.inRecord = true ∧
    (parse {} (parse {} {} beforeCases).1 fromCases).2 = none ∧
    parse {} {} (beforeCases ++ "\n" ++ fromCases) =
      ((parse {} (parse {} {} beforeCases).1 fromCases).1, none) ∧
    ((parse {} {} (beforeCases ++ "\n" ++ fromCases)).1.scripts.map (·.counts)) = [[1, 4]] ∧
    parse {} {} (Text.joinWith "\r\n" (Text.splitLines fromCases)) =
      parse {} {} (Text.joinWith "\n" (Text.splitLines fromCases)) := by
  have hfirst : (parse {} {} beforeCases).2 = none := by decide +kernel
  have hsecond : (parse {} (parse {} {} beforeCases).1 fromCases).2 = none := by decide +kernel
  have hends : ∀ {result : Session × Option Fault}, result.2 = none →
      result = (result.1, none) := by
    rintro ⟨s, _⟩ rfl
    rfl
  obtain ⟨hpieces, hlines⟩ := parse_piecewise {} {}
  have hwhole : parse {} {} (beforeCases ++ "\n" ++ fromCases) =
      ((parse {} (parse {} {} beforeCases).1 fromCases).1, none) :=
    hpieces _ _ _ _ (hends hfirst) (hends hsecond)
  exact ⟨hfirst, by decide +kernel, hsecond, hwhole, by decide +kernel,
    hlines _ (by decide +kernel)⟩

end BytecodeCoverage.Session
