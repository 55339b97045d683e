-- SUMMARY: Small readers over lists of characters that the trace grammar is built from.

/-!
# Scanning text

Text is read as a list of characters. A piece is what stands between two separators; a lead is
text that has to stand first.
-/

namespace BytecodeCoverage.Text

/-- What follows the lead, if the text starts with it. -/
def after? : List Char → List Char → Option (List Char)
  | [], cs => some cs
  | _ :: _, [] => none
  | l :: lead, c :: cs => if l = c then after? lead cs else none

/-- The text without one newline at its end. -/
def dropFinalNewline (cs : List Char) : List Char :=
  if cs.getLast? = some '\n' then cs.dropLast else cs

/-- The pieces between the separators, the first of them apart since there always is one. -/
def pieces (sep : Char) (cs : List Char) : List Char × List (List Char) :=
  cs.foldr (fun c (piece, more) => if c = sep then ([], piece :: more) else (c :: piece, more))
    ([], [])

/-- Text joined by a separator. -/
def joinWith (sep : String) : List String → String
  | [] => ""
  | s :: rest => rest.foldl (fun text t => text ++ sep ++ t) s

/-- Joining puts one separator between neighbours. -/
theorem joinWith_cons_cons (sep s t : String) (rest : List String) :
    joinWith sep (s :: t :: rest) = s ++ sep ++ joinWith sep (t :: rest) := by
  have foldl_append : ∀ (ts : List String) (a b : String),
      ts.foldl (fun text t => text ++ sep ++ t) (a ++ b) =
        a ++ ts.foldl (fun text t => text ++ sep ++ t) b := by
    intro ts
    induction ts with
    | nil => intros; rfl
    | cons t ts ih =>
      intro a b
      simpa only [List.foldl_cons, String.append_assoc] using ih a (b ++ sep ++ t)
  exact foldl_append rest (s ++ sep) t

@[simp] theorem joinWith_nil (sep : String) : joinWith sep [] = "" := rfl

@[simp] theorem joinWith_singleton (sep s : String) : joinWith sep [s] = s := rfl

theorem after?_eq_some_iff {lead cs rest : List Char} :
    after? lead cs = some rest ↔ cs = lead ++ rest := by
  induction lead generalizing cs with
  | nil => simp [after?]
  | cons l lead ih =>
    cases cs with
    | nil => simp [after?]
    | cons c cs =>
      by_cases h : l = c
      · simp [after?, h, ih]
      · simp [after?, h, Ne.symm h]

@[simp] theorem pieces_nil (sep : Char) : pieces sep [] = ([], []) := rfl

theorem pieces_cons (sep c : Char) (cs : List Char) :
    pieces sep (c :: cs) =
      if c = sep then ([], (pieces sep cs).1 :: (pieces sep cs).2)
      else (c :: (pieces sep cs).1, (pieces sep cs).2) := rfl

/-- The pieces of two texts that a separator joins are the pieces of the one, then of the other. -/
theorem pieces_append_cons (sep : Char) (a b : List Char) :
    pieces sep (a ++ sep :: b) =
      ((pieces sep a).1, (pieces sep a).2 ++ (pieces sep b).1 :: (pieces sep b).2) := by
  induction a with
  | nil => simp [pieces_cons]
  | cons c a ih =>
    by_cases h : c = sep <;> simp [pieces_cons, h, ih]

end BytecodeCoverage.Text
