-- SUMMARY: Text that separators join can be taken apart again.
import BytecodeCoverage.Text.Lines
import BytecodeCoverage.Text.Scan
import Mathlib.Data.List.Basic
import Std.Data.String.ToInt

/-!
# Joined text

Two texts with a separator between them are told by the whole if one side has no separator of its
own, and so are lines that newlines join. A number is written with digits and a minus sign, so no
separator gets into it.
-/

namespace BytecodeCoverage.Text

/-! ## Numbers -/

theorem isDigit_of_mem_repr {n : Nat} {c : Char} (h : c ∈ n.repr.toList) : c.isDigit := by
  rw [Nat.toList_repr] at h
  exact Nat.isDigit_of_mem_toDigits (by decide) (by decide) h

theorem not_mem_repr {c : Char} (hdigit : c.isDigit = false) (hminus : c ≠ '-') (n : Int) :
    c ∉ n.repr.toList := by
  have hnat : ∀ m : Nat, c ∉ m.repr.toList := by
    intro m hm
    rw [isDigit_of_mem_repr hm] at hdigit
    cases hdigit
  rw [Int.repr_eq_if]
  split
  · exact hnat _
  · rw [String.toList_append, List.mem_append]
    rintro (h | h)
    · exact hminus (List.mem_singleton.1 h)
    · exact hnat _ h

theorem colon_not_mem_repr (n : Int) : ':' ∉ n.repr.toList := not_mem_repr rfl (by decide) n

theorem newline_not_mem_repr (n : Int) : '\n' ∉ n.repr.toList := not_mem_repr rfl (by decide) n

/-! ## Two texts -/

variable {sep : Char} {a a' b b' : List Char}

/-- Two texts are taken apart at the first separator. -/
theorem append_cons_inj_of_first (ha : sep ∉ a) (ha' : sep ∉ a') :
    a ++ sep :: b = a' ++ sep :: b' ↔ a = a' ∧ b = b' := by
  have hfirst : ∀ {x y : List Char}, sep ∉ x → (x ++ sep :: y).takeWhile (· ≠ sep) = x := by
    intro x y hx
    rw [List.takeWhile_append_of_pos, List.takeWhile_cons_of_neg (by simp), List.append_nil]
    intro c hc
    exact decide_eq_true (ne_of_mem_of_not_mem hc hx)
  constructor
  · intro h
    have hsame := congrArg (List.takeWhile (· ≠ sep)) h
    rw [hfirst ha, hfirst ha'] at hsame
    subst hsame
    rw [List.append_cancel_left_eq, List.cons.injEq] at h
    exact ⟨rfl, h.2⟩
  · rintro ⟨rfl, rfl⟩
    rfl

/-- Two texts are taken apart at the last separator. -/
theorem append_cons_inj_of_last (hb : sep ∉ b) (hb' : sep ∉ b') :
    a ++ sep :: b = a' ++ sep :: b' ↔ a = a' ∧ b = b' := by
  have hreverse : ∀ x y : List Char, (x ++ sep :: y).reverse = y.reverse ++ sep :: x.reverse := by
    intro x y
    simp
  rw [← List.reverse_inj, hreverse, hreverse, append_cons_inj_of_first (by simpa) (by simpa),
    List.reverse_inj, List.reverse_inj, and_comm]

/-! ## Lines -/

theorem toList_joinWith (sep : String) (lines : List String) :
    (joinWith sep lines).toList = sep.toList.intercalate (lines.map String.toList) := by
  match lines with
  | [] => rfl
  | [line] => simp
  | line :: next :: rest =>
    rw [joinWith_cons_cons, String.toList_append, String.toList_append, toList_joinWith]
    simp only [List.map_cons, List.intercalate_cons_cons]

/-- What is neither in the texts nor in what is put between them is not in the joined text. -/
theorem not_mem_joinWith {sep : String} {c : Char} (hsep : c ∉ sep.toList) {lines : List String}
    (h : ∀ line ∈ lines, c ∉ line.toList) : c ∉ (joinWith sep lines).toList := by
  match lines with
  | [] => exact List.not_mem_nil
  | [line] => exact h line (.head _)
  | line :: next :: rest =>
    obtain ⟨hline, hrest⟩ := List.forall_mem_cons.1 h
    rw [joinWith_cons_cons, String.toList_append, String.toList_append, List.mem_append,
      List.mem_append, not_or, not_or]
    exact ⟨⟨hline, hsep⟩, not_mem_joinWith hsep hrest⟩

/-- No lines are joined to the same text as one empty line, and else the text tells the lines. -/
theorem splitOn_joinWith {lines : List String} (h : ∀ line ∈ lines, '\n' ∉ line.toList) :
    (joinWith "\n" lines).toList.splitOn '\n' =
      if lines = [] then [[]] else lines.map String.toList := by
  rw [toList_joinWith]
  split
  · rename_i hlines
    subst hlines
    rfl
  · rename_i hlines
    refine List.splitOn_intercalate '\n' ?_ (by simpa using hlines)
    intro l hl
    obtain ⟨line, hline, rfl⟩ := List.mem_map.1 hl
    exact h line hline

theorem joinWith_inj {lines lines' : List String}
    (h : ∀ line ∈ lines, '\n' ∉ line.toList ∧ line ≠ "")
    (h' : ∀ line ∈ lines', '\n' ∉ line.toList ∧ line ≠ "") :
    joinWith "\n" lines = joinWith "\n" lines' ↔ lines = lines' := by
  refine ⟨?_, congrArg _⟩
  -- A list that is made of one empty line only is none of the two.
  have hone : ∀ {ls : List String}, (∀ line ∈ ls, '\n' ∉ line.toList ∧ line ≠ "") →
      [[]] ≠ ls.map String.toList := by
    intro ls hls hmap
    have hmem : [] ∈ ls.map String.toList := hmap ▸ List.mem_singleton.2 rfl
    obtain ⟨line, hline, hempty⟩ := List.mem_map.1 hmem
    exact (hls line hline).2 (String.toList_eq_nil_iff.1 hempty)
  intro hjoin
  have hsplit := congrArg (fun text => text.toList.splitOn '\n') hjoin
  simp only [splitOn_joinWith fun line hline => (h line hline).1,
    splitOn_joinWith fun line hline => (h' line hline).1] at hsplit
  split at hsplit
  · rename_i hlines
    split at hsplit
    · rename_i hlines'
      rw [hlines, hlines']
    · exact absurd hsplit (hone h')
  · split at hsplit
    · exact absurd hsplit.symm (hone h)
    · exact List.map_injective_iff.2 (fun _ _ => String.toList_injective) hsplit

/-! ## Pieces -/

theorem pieces_of_not_mem {cs : List Char} (h : sep ∉ cs) : pieces sep cs = (cs, []) := by
  induction cs with
  | nil => rfl
  | cons c rest ih =>
    rw [List.mem_cons, not_or] at h
    rw [pieces_cons, if_neg (Ne.symm h.1), ih h.2]

theorem pieces_eq_splitOn (sep : Char) (cs : List Char) :
    (pieces sep cs).1 :: (pieces sep cs).2 = cs.splitOn sep := by
  induction cs with
  | nil => rfl
  | cons c rest ih =>
    rw [pieces_cons, List.splitOn, List.splitOnP_cons_eq_if_modifyHead, ← List.splitOn, ← ih]
    by_cases h : c = sep
    · simp [h]
    · simp [h]

/-- Pieces that the separator joins are found again. -/
theorem pieces_intercalate {piece : List Char} {more : List (List Char)}
    (h : ∀ p ∈ piece :: more, sep ∉ p) : pieces sep ([sep].intercalate (piece :: more)) =
      (piece, more) := by
  induction more generalizing piece with
  | nil =>
    rw [List.intercalate_singleton]
    exact pieces_of_not_mem (h piece (.head _))
  | cons next rest ih =>
    obtain ⟨hpiece, hrest⟩ := List.forall_mem_cons.1 h
    rw [List.intercalate_cons_cons, List.append_assoc, List.singleton_append, pieces_append_cons,
      ih hrest, pieces_of_not_mem hpiece]
    rfl

/-- What stands in joined pieces is the separator, or it stands in one of them. -/
theorem mem_of_mem_intercalate {parts : List (List Char)} {c : Char}
    (h : c ∈ [sep].intercalate parts) : c = sep ∨ ∃ part ∈ parts, c ∈ part := by
  match parts with
  | [] => cases h
  | [part] =>
    rw [List.intercalate_singleton] at h
    exact .inr ⟨part, .head _, h⟩
  | part :: next :: rest =>
    rw [List.intercalate_cons_cons, List.mem_append, List.mem_append, List.mem_singleton] at h
    rcases h with (h | h) | h
    · exact .inr ⟨part, .head _, h⟩
    · exact .inl h
    · exact (mem_of_mem_intercalate h).imp_right fun ⟨later, hlater, hc⟩ =>
        ⟨later, .tail _ hlater, hc⟩

/-- The lines of two texts that a newline joins are the lines of the one, then of the other. -/
theorem splitLines_append (a b : String) :
    splitLines (a ++ "\n" ++ b) = splitLines a ++ splitLines b := by
  have hjoin : (a ++ "\n" ++ b).toList = a.toList ++ '\n' :: b.toList := by simp
  simp only [splitLines, hjoin, pieces_append_cons, List.map_cons, List.map_append,
    List.cons_append]

/-- A text without newlines is one line, and is left as it is if no carriage return ends it. -/
theorem splitLines_of_one {line : String} (hnewline : '\n' ∉ line.toList)
    (hreturn : line.toList.getLast? ≠ some '\r') : splitLines line = [line] := by
  rw [splitLines, pieces_of_not_mem hnewline]
  simp only [List.map_cons, List.map_nil, dropFinalReturn, if_neg hreturn, String.ofList_toList]

/-- A carriage return at the end of a line is not part of it. -/
theorem splitLines_of_returned {line : String} (hnewline : '\n' ∉ line.toList) :
    splitLines (line ++ "\r") = [line] := by
  have hlist : (line ++ "\r").toList = line.toList ++ ['\r'] := by simp
  have hreturned : '\n' ∉ line.toList ++ ['\r'] := by simp [hnewline]
  rw [splitLines, hlist, pieces_of_not_mem hreturned]
  simp [dropFinalReturn]

/-- Lines are found again in the text that they make, whichever line end is used in it. -/
theorem splitLines_joinWith {sep : String} (hsep : sep = "\n" ∨ sep = "\r\n")
    {lines : List String} (hlines : lines ≠ [])
    (h : ∀ line ∈ lines, '\n' ∉ line.toList ∧ line.toList.getLast? ≠ some '\r') :
    splitLines (joinWith sep lines) = lines := by
  match lines with
  | [] => contradiction
  | [line] =>
    obtain ⟨hnewline, hreturn⟩ := h line (.head _)
    exact splitLines_of_one hnewline hreturn
  | line :: next :: rest =>
    obtain ⟨⟨hnewline, hreturn⟩, hrest⟩ := List.forall_mem_cons.1 h
    have hmore := splitLines_joinWith hsep (List.cons_ne_nil next rest) hrest
    rw [joinWith_cons_cons]
    rcases hsep with rfl | rfl
    · rw [splitLines_append, splitLines_of_one hnewline hreturn, hmore, List.singleton_append]
    · -- The carriage return ends the line, and the newline after it joins the two texts.
      have hpair : line ++ "\r\n" = line ++ "\r" ++ "\n" := by
        rw [String.append_assoc]
        rfl
      rw [hpair, splitLines_append, splitLines_of_returned hnewline, hmore, List.singleton_append]

end BytecodeCoverage.Text
