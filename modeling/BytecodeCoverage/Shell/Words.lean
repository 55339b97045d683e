-- SUMMARY: Cutting a typed line into words, with quotes and backslashes.

/-!
# Words

Words stand between blanks. Quotes of either kind hold a part of a word together, blanks included,
and make a word even of nothing. A backslash takes the next character as it is. Between double
quotes it does so only for a double quote and itself, and between single quotes it is a character
like others.
-/

namespace BytecodeCoverage.Words

/-- Why a line has no words. -/
inductive Fault where
  | openQuote
  | openEscape
  deriving Repr, DecidableEq

def Fault.message : Fault → String
  | .openQuote => "No closing quotation"
  | .openEscape => "No escaped character"

/-- Where the reader of a line stands. Within a word it has the characters of it, latest first. -/
inductive Mode where
  | between
  | word (taken : List Char)
  | quoted (mark : Char) (taken : List Char)
  | escaped (taken : List Char)
  | escapedInQuotes (taken : List Char)
  deriving Repr, DecidableEq

def isSeparator (c : Char) : Bool := c = ' ' || c = '\t' || c = '\r' || c = '\n'

/-- Take a character outside of quotes. -/
def Mode.takePlain (taken : List Char) (c : Char) : Mode :=
  if c = '\\' then .escaped taken
  else if c = '\'' ∨ c = '"' then .quoted c taken
  else .word (c :: taken)

/-- Take a character. Gives the word that it ends, if it ends one. -/
def Mode.step (m : Mode) (c : Char) : Mode × Option (List Char) :=
  match m with
  | .between => (if isSeparator c then .between else Mode.takePlain [] c, none)
  | .word taken =>
    if isSeparator c then (.between, some taken.reverse) else (Mode.takePlain taken c, none)
  | .quoted mark taken =>
    if c = mark then (.word taken, none)
    else if c = '\\' ∧ mark = '"' then (.escapedInQuotes taken, none)
    else (.quoted mark (c :: taken), none)
  | .escaped taken => (.word (c :: taken), none)
  | .escapedInQuotes taken =>
    (.quoted '"' (if c = '"' ∨ c = '\\' then c :: taken else c :: '\\' :: taken), none)

/-- The words of some characters from a mode on. -/
def read (m : Mode) : List Char → Except Fault (List (List Char))
  | [] =>
    match m with
    | .between => .ok []
    | .word taken => .ok [taken.reverse]
    | .quoted .. => .error .openQuote
    | .escaped _ => .error .openEscape
    | .escapedInQuotes _ => .error .openEscape
  | c :: cs =>
    let (m, ended) := m.step c
    (read m cs).map (ended.toList ++ ·)

/-- The words of a line. -/
def split (line : String) : Except Fault (List String) :=
  (read .between line.toList).map (·.map String.ofList)

-- ---------------------------------------------------------------------------
-- Words that have begun
-- ---------------------------------------------------------------------------

theorem Mode.takePlain_ne_between (taken : List Char) (c : Char) :
    Mode.takePlain taken c ≠ .between := by
  unfold takePlain
  split
  · nofun
  · split
    · nofun
    · nofun

/-- Within a word, a character either stays within it or ends it. -/
theorem Mode.step_within {m : Mode} (hm : m ≠ .between) (c : Char) :
    (m.step c).1 ≠ .between ∨ (m.step c).2 ≠ none := by
  cases m with
  | between => contradiction
  | word taken =>
    simp only [step]
    split
    · exact .inr nofun
    · exact .inl (takePlain_ne_between taken c)
  | quoted mark taken =>
    simp only [step]
    split
    · exact .inl nofun
    · split
      · exact .inl nofun
      · exact .inl nofun
  | escaped taken => exact .inl nofun
  | escapedInQuotes taken => exact .inl nofun

/-- A word that has begun is among the words, unless the line ends in the middle of it. By
induction on the characters that are left. -/
theorem read_ne_nil {m : Mode} (hm : m ≠ .between) (cs : List Char) : read m cs ≠ .ok [] := by
  induction cs generalizing m with
  | nil =>
    cases m with
    | between => contradiction
    | word taken => nofun
    | quoted mark taken => nofun
    | escaped taken => nofun
    | escapedInQuotes taken => nofun
  | cons c rest ih =>
    intro hread
    change (read (m.step c).1 rest).map ((m.step c).2.toList ++ ·) = .ok [] at hread
    cases hrest : read (m.step c).1 rest with
    | error fault =>
      rw [hrest] at hread
      cases hread
    | ok words =>
      rw [hrest] at hread
      obtain ⟨hended, rfl⟩ := List.append_eq_nil_iff.1 (Except.ok.inj hread)
      rcases Mode.step_within hm c with hwithin | hword
      · exact ih hwithin hrest
      · cases hstep : (m.step c).2 with
        | none => exact hword hstep
        | some word =>
          rw [hstep] at hended
          cases hended

/-- What begins with no separator has a word, if it can be cut into words at all. -/
theorem split_ne_nil {c : Char} (hc : isSeparator c = false) (rest : List Char) :
    split (String.ofList (c :: rest)) ≠ .ok [] := by
  intro hsplit
  rw [split, String.toList_ofList, read] at hsplit
  simp only [Mode.step, hc, Bool.false_eq_true, if_false] at hsplit
  cases hread : read (Mode.takePlain [] c) rest with
  | error fault =>
    rw [hread] at hsplit
    cases hsplit
  | ok words =>
    rw [hread] at hsplit
    have hnone : words = [] := List.map_eq_nil_iff.1 (Except.ok.inj hsplit)
    exact read_ne_nil (Mode.takePlain_ne_between [] c) rest (hnone ▸ hread)

end BytecodeCoverage.Words
