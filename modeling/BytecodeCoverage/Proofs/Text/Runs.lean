-- SUMMARY: The runs of digits in a text, and what follows where all of them are short.
import BytecodeCoverage.Decimal.Numeral
import BytecodeCoverage.Text.Lines
import Mathlib.Algebra.Group.Nat.Defs
import Mathlib.Data.List.Infix
import Mathlib.Data.List.TakeWhile

/-!
# Runs of digits

Whatever a reader takes for a number is a run of digits that stands in its text. Where all runs are
shorter than the limit, each is converted, and the numbers are so small that the sum of two of them
can still be written.
-/

namespace BytecodeCoverage

/-! ## Numbers -/

namespace Text

/-- A run of digits writes a number below the power of ten of its length. -/
theorem digitsValue_lt (cs : List Char) : digitsValue cs < 10 ^ cs.length := by
  have hfold : ∀ n : Nat,
      cs.foldl (fun n c => 10 * n + (digitValue? c).getD 0) n < (n + 1) * 10 ^ cs.length := by
    induction cs with
    | nil => simp
    | cons c rest ih =>
      intro n
      have hdigit : (digitValue? c).getD 0 < 10 := by
        cases hvalue : digitValue? c with
        | none => decide
        | some d => exact digitValue?_lt hvalue
      calc rest.foldl (fun n c => 10 * n + (digitValue? c).getD 0)
            (10 * n + (digitValue? c).getD 0)
          < (10 * n + (digitValue? c).getD 0 + 1) * 10 ^ rest.length := ih _
        _ ≤ (10 * (n + 1)) * 10 ^ rest.length := Nat.mul_le_mul_right _ (by omega)
        _ = (n + 1) * 10 ^ (c :: rest).length := by
            rw [List.length_cons, Nat.pow_succ]
            ac_rfl
  simpa [digitsValue] using hfold 0

end Text

namespace Numeral

/-- The least number that has as many digits as are converted at most. -/
def shortBound : Nat := 10 ^ (digitLimit - 1)

theorem tooLong_eq : tooLong = 10 * shortBound := by
  have hlimit : digitLimit = digitLimit - 1 + 1 := rfl
  unfold tooLong shortBound
  generalize digitLimit - 1 = k at hlimit ⊢
  rw [hlimit]
  exact Nat.pow_succ'

theorem tooLong_eq_pow : tooLong = 10 ^ digitLimit := by
  unfold tooLong
  generalize digitLimit = k
  rfl

/-- What can be read can be written. -/
theorem isWritable_of_read {digits : List Char} {n : Nat} (h : read digits = .ok n) :
    isWritable n := by
  unfold read at h
  split at h
  · rename_i hlength
    cases h
    rw [isWritable, decide_eq_true_eq, Int.natAbs_natCast, tooLong_eq_pow]
    exact Nat.lt_of_lt_of_le (Text.digitsValue_lt digits)
      (Nat.pow_le_pow_right (by decide) hlength)
  · cases h

/-- The number has fewer digits than are converted at most. -/
def IsShort (n : Int) : Prop := n.natAbs < shortBound

theorem IsShort.isWritable {n : Int} (h : IsShort n) : isWritable n := by
  rw [IsShort] at h
  rw [Numeral.isWritable, tooLong_eq, decide_eq_true_eq]
  omega

/-- The sum of two such numbers has one digit more at most. -/
theorem IsShort.isWritable_add {m n : Int} (hm : IsShort m) (hn : IsShort n) :
    Numeral.isWritable (m + n) := by
  rw [IsShort] at hm hn
  rw [Numeral.isWritable, tooLong_eq, decide_eq_true_eq]
  omega

theorem isShort_zero : IsShort 0 := by
  rw [IsShort, shortBound]
  exact Nat.pow_pos (by decide)

theorem IsShort.neg {n : Int} (h : IsShort n) : IsShort (-n) := by
  rw [IsShort] at h ⊢
  rwa [Int.natAbs_neg]

end Numeral

namespace Text

/-! ## Runs -/

/-- Digits that stand side by side in the text. -/
def IsRunOf (run cs : List Char) : Prop := run <:+: cs ∧ ∀ c ∈ run, isDigit c

theorem IsRunOf.within {run cs cs' : List Char} (h : IsRunOf run cs) (hcs : cs <:+: cs') :
    IsRunOf run cs' := ⟨h.1.trans hcs, h.2⟩

theorem isRunOf_takeWhile (cs : List Char) : IsRunOf (cs.takeWhile isDigit) cs :=
  ⟨(List.takeWhile_prefix _).isInfix, fun _ hc => List.mem_takeWhile_imp hc⟩

theorem IsRunOf.reverse {run cs : List Char} (h : IsRunOf run cs) :
    IsRunOf run.reverse cs.reverse :=
  ⟨List.reverse_infix.2 h.1, fun c hc => h.2 c (List.mem_reverse.1 hc)⟩

/-- No run goes on past a character that is no digit. -/
theorem IsRunOf.of_append_cons {run cs cs' : List Char} {c : Char} (hc : isDigit c = false)
    (h : IsRunOf run (cs ++ c :: cs')) : IsRunOf run cs ∨ IsRunOf run (c :: cs') := by
  obtain ⟨hpart, hdigits⟩ := h
  rcases List.infix_append_iff_ne_nil.1 hpart with hrun | hrun |
    ⟨front, back, -, hback, rfl, -, hrun⟩
  · exact .inl ⟨hrun, hdigits⟩
  · exact .inr ⟨hrun, hdigits⟩
  · obtain ⟨first, rest, rfl⟩ := List.exists_cons_of_ne_nil hback
    obtain ⟨rfl, -⟩ := List.cons_prefix_cons.1 hrun
    rw [hdigits first (by simp)] at hc
    cases hc

/-- Every run of digits in the text is short enough to be converted. -/
def HasReadableRuns (cs : List Char) : Prop :=
  ∀ run, IsRunOf run cs → run.length ≤ Numeral.digitLimit

namespace HasReadableRuns

variable {cs cs' run : List Char}

theorem within (h : HasReadableRuns cs) (hcs : cs' <:+: cs) : HasReadableRuns cs' :=
  fun run hrun => h run (hrun.within hcs)

theorem append_cons (h : HasReadableRuns cs) {c : Char} (hc : isDigit c = false)
    (h' : HasReadableRuns (c :: cs')) : HasReadableRuns (cs ++ c :: cs') :=
  fun run hrun => (hrun.of_append_cons hc).elim (h run) (h' run)

theorem read (h : HasReadableRuns cs) (hrun : IsRunOf run cs) :
    Numeral.read run = .ok (digitsValue run) := Numeral.read_eq_ok (h run hrun)

end HasReadableRuns

/-- Every run of digits in the text is shorter than the longest that is converted. -/
def HasShortRuns (cs : List Char) : Prop := ∀ run, IsRunOf run cs → run.length < Numeral.digitLimit

namespace HasShortRuns

variable {cs cs' run : List Char}

theorem within (h : HasShortRuns cs) (hcs : cs' <:+: cs) : HasShortRuns cs' :=
  fun run hrun => h run (hrun.within hcs)

theorem append_cons (h : HasShortRuns cs) {c : Char} (hc : isDigit c = false)
    (h' : HasShortRuns (c :: cs')) : HasShortRuns (cs ++ c :: cs') :=
  fun run hrun => (hrun.of_append_cons hc).elim (h run) (h' run)

theorem readable (h : HasShortRuns cs) : HasReadableRuns cs :=
  fun run hrun => Nat.le_of_lt (h run hrun)

theorem read (h : HasShortRuns cs) (hrun : IsRunOf run cs) :
    ∃ n : Nat, Numeral.read run = .ok n ∧ Numeral.IsShort n := by
  have hlength := h run hrun
  refine ⟨_, h.readable.read hrun, ?_⟩
  rw [Numeral.IsShort, Int.natAbs_natCast, Numeral.shortBound]
  exact Nat.lt_of_lt_of_le (digitsValue_lt run) (Nat.pow_le_pow_right (by decide) (by omega))

theorem readSigned (h : HasShortRuns cs) (hrun : IsRunOf run cs) (negative : Bool) :
    ∃ n : Int, Numeral.readSigned negative run = .ok n ∧ Numeral.IsShort n := by
  obtain ⟨n, hread, hshort⟩ := h.read hrun
  refine ⟨if negative then -(n : Int) else n, by rw [Numeral.readSigned, hread]; rfl, ?_⟩
  split
  · exact hshort.neg
  · exact hshort

end HasShortRuns

/-! ## Pieces -/

theorem prefix_first_piece (sep : Char) (cs : List Char) : (pieces sep cs).1 <+: cs := by
  induction cs with
  | nil => exact List.prefix_rfl
  | cons c rest ih =>
    rw [pieces_cons]
    split
    · exact List.nil_prefix
    · exact List.cons_prefix_cons.2 ⟨rfl, ih⟩

theorem infix_of_mem_pieces {sep : Char} {cs piece : List Char}
    (h : piece ∈ (pieces sep cs).1 :: (pieces sep cs).2) : piece <:+: cs := by
  induction cs generalizing piece with
  | nil =>
    rw [pieces_nil, List.mem_singleton] at h
    rw [h]
  | cons c rest ih =>
    have hfirst := prefix_first_piece sep (c :: rest)
    rcases List.mem_cons.1 h with rfl | h
    · exact hfirst.isInfix
    · -- A later piece of the whole is a piece of the rest.
      have hrest : piece ∈ (pieces sep rest).1 :: (pieces sep rest).2 := by
        rw [pieces_cons] at h
        split at h
        · exact h
        · exact .tail _ h
      exact (ih hrest).trans (List.suffix_cons c rest).isInfix

theorem not_mem_piece {sep : Char} {cs piece : List Char}
    (h : piece ∈ (pieces sep cs).1 :: (pieces sep cs).2) : sep ∉ piece := by
  induction cs generalizing piece with
  | nil =>
    rw [pieces_nil, List.mem_singleton] at h
    rw [h]
    exact List.not_mem_nil
  | cons c rest ih =>
    rw [pieces_cons] at h
    split at h
    · rcases List.mem_cons.1 h with rfl | h
      · exact List.not_mem_nil
      · exact ih h
    · rename_i hc
      rcases List.mem_cons.1 h with rfl | h
      · rintro (_ | ⟨_, hmem⟩)
        · exact hc rfl
        · exact ih (.head _) hmem
      · exact ih (.tail _ h)

theorem prefix_dropFinalReturn (cs : List Char) : dropFinalReturn cs <+: cs := by
  unfold dropFinalReturn
  split
  · exact List.dropLast_prefix cs
  · exact List.prefix_rfl

theorem prefix_dropFinalNewline (cs : List Char) : dropFinalNewline cs <+: cs := by
  unfold dropFinalNewline
  split
  · exact List.dropLast_prefix cs
  · exact List.prefix_rfl

/-- A line stands in its text. -/
theorem infix_of_mem_splitLines {text line : String} (h : line ∈ splitLines text) :
    line.toList <:+: text.toList := by
  obtain ⟨piece, hpiece, rfl⟩ := List.mem_map.1 h
  rw [String.toList_ofList]
  exact (prefix_dropFinalReturn piece).isInfix.trans (infix_of_mem_pieces hpiece)

theorem newline_not_mem_of_mem_splitLines {text line : String} (h : line ∈ splitLines text) :
    '\n' ∉ line.toList := by
  obtain ⟨piece, hpiece, rfl⟩ := List.mem_map.1 h
  rw [String.toList_ofList]
  exact fun hmem => not_mem_piece hpiece ((prefix_dropFinalReturn piece).subset hmem)

theorem suffix_of_after? {lead cs rest : List Char} (h : after? lead cs = some rest) :
    rest <:+ cs := ⟨lead, (after?_eq_some_iff.1 h).symm⟩

end Text

end BytecodeCoverage
