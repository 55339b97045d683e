-- SUMMARY: Where counts grow and nothing else changes, no class of a line falls.
import BytecodeCoverage.Proofs.Coverage.Exposure
import Mathlib.Data.List.Forall2

/-!
# Growth

Further dumps of scripts that are known add to counts and change nothing else. Code that ran stays
code that ran. A count of zero is told where the instruction before does not fall through, which
does not hang on counts, so none is told that was not told before. A line can thus only rise, from
the class of lines that did not run over that of lines that ran in part to that of those that ran.

The relation is the same at each level: instructions grow in their counts, and scripts, lines and
files in their instructions.
-/

namespace BytecodeCoverage

/-- What is at a position of one list is related to what is there in the other. -/
theorem exists_getElem?_of_forall₂ {α β : Type} {R : α → β → Prop} {as : List α} {bs : List β}
    (h : List.Forall₂ R as bs) {i : Nat} {a : α} (ha : as[i]? = some a) :
    ∃ b, bs[i]? = some b ∧ R a b := by
  induction h generalizing i with
  | nil => cases ha
  | cons hab _ ih =>
    cases i with
    | zero =>
      cases ha
      exact ⟨_, rfl, hab⟩
    | succ i => exact ih ha

theorem forall₂_trans {α : Type} {R : α → α → Prop} (htrans : ∀ a b c, R a b → R b c → R a c)
    {as bs cs : List α} (hab : List.Forall₂ R as bs) (hbc : List.Forall₂ R bs cs) :
    List.Forall₂ R as cs := by
  induction hab generalizing cs with
  | nil =>
    cases hbc
    exact .nil
  | cons h _ ih =>
    cases hbc with
    | cons h' hrest => exact .cons (htrans _ _ _ h h') (ih hrest)

theorem rel_getD {α β : Type} {R : α → β → Prop} {a : Option α} {b : Option β}
    (h : Option.Rel R a b) {x : α} {y : β} (hxy : R x y) : R (a.getD x) (b.getD y) := by
  cases h with
  | none => exact hxy
  | some hab => exact hab

theorem rel_imp {α β : Type} {R S : α → β → Prop} {a : Option α} {b : Option β}
    (h : Option.Rel R a b) (himp : ∀ x y, a = some x → R x y → S x y) : Option.Rel S a b := by
  cases h with
  | none => exact .none
  | some hab => exact .some (himp _ _ rfl hab)

theorem map_eq_of_rel {α β γ : Type} {R : α → β → Prop} {a : Option α} {b : Option β}
    (h : Option.Rel R a b) {f : α → γ} {g : β → γ} (hsame : ∀ x y, R x y → f x = g y) :
    a.map f = b.map g := by
  cases h with
  | none => rfl
  | some hab => exact congrArg some (hsame _ _ hab)

/-! ## Instructions -/

/-- The new instruction is the old one with a count that is as high or higher. -/
structure Instruction.Grown (old new : Instruction) : Prop where
  rest : new.uncounted = old.uncounted
  count : old.count ≤ new.count

namespace Instruction.Grown

variable {old new : Instruction}

theorem refl (ins : Instruction) : ins.Grown ins := ⟨rfl, Int.le_refl _⟩

theorem trans {a b c : Instruction} (hab : a.Grown b) (hbc : b.Grown c) : a.Grown c :=
  ⟨hbc.rest.trans hab.rest, Int.le_trans hab.count hbc.count⟩

theorem address (h : old.Grown new) : new.address = old.address :=
  (congrArg Instruction.address h.rest :)

theorem sourceLine (h : old.Grown new) : new.sourceLine = old.sourceLine :=
  (congrArg Instruction.sourceLine h.rest :)

theorem text (h : old.Grown new) : new.text = old.text :=
  (congrArg Instruction.text h.rest :)

theorem reachable (h : old.Grown new) : new.reachable = old.reachable :=
  (congrArg Instruction.reachable h.rest :)

theorem fallsThrough (h : old.Grown new) : new.fallsThrough = old.fallsThrough :=
  (congrArg Instruction.fallsThrough h.rest :)

theorem sound (h : old.Grown new) (hsound : old.Sound) : new.Sound := by
  refine ⟨Int.le_trans hsound.count h.count, ?_⟩
  rw [h.fallsThrough, h.reachable]
  exact hsound.reachable

end Instruction.Grown

/-! ## Code -/

/-- Each instruction has grown, or stayed as it was. -/
abbrev GrownCode (old new : List Instruction) : Prop := List.Forall₂ Instruction.Grown old new

namespace GrownCode

variable {old new : List Instruction} {haltMnemonic : String}

theorem exists_old_at (h : GrownCode old new) {i : Nat} {ins' : Instruction}
    (hins : new[i]? = some ins') : ∃ ins, old[i]? = some ins ∧ ins.Grown ins' :=
  exists_getElem?_of_forall₂ h.flip hins

theorem exists_new (h : GrownCode old new) {ins : Instruction} (hins : ins ∈ old) :
    ∃ ins' ∈ new, ins.Grown ins' := by
  obtain ⟨i, hi⟩ := List.mem_iff_getElem?.1 hins
  obtain ⟨ins', hins', hgrown⟩ := exists_getElem?_of_forall₂ h hi
  exact ⟨ins', List.mem_of_getElem? hins', hgrown⟩

theorem exists_old (h : GrownCode old new) {ins' : Instruction} (hins : ins' ∈ new) :
    ∃ ins ∈ old, ins.Grown ins' := by
  obtain ⟨i, hi⟩ := List.mem_iff_getElem?.1 hins
  obtain ⟨ins, hins, hgrown⟩ := h.exists_old_at hi
  exact ⟨ins, List.mem_of_getElem? hins, hgrown⟩

theorem sound (h : GrownCode old new) (hsound : ∀ ins ∈ old, ins.Sound) :
    ∀ ins ∈ new, ins.Sound := by
  intro ins' hins'
  obtain ⟨ins, hins, hgrown⟩ := h.exists_old hins'
  exact hgrown.sound (hsound ins hins)

theorem ranSome (h : GrownCode old new) (hran : RanSome old) : RanSome new := by
  obtain ⟨ins, hins, hreach, hcount⟩ := hran
  obtain ⟨ins', hins', hgrown⟩ := h.exists_new hins
  exact ⟨ins', hins', hgrown.reachable.trans hreach, Int.lt_of_lt_of_le hcount hgrown.count⟩

theorem exists_unreachable (h : GrownCode old new) (hnone : ∃ ins ∈ old, ins.reachable = false) :
    ∃ ins ∈ new, ins.reachable = false := by
  obtain ⟨ins, hins, hreach⟩ := hnone
  obtain ⟨ins', hins', hgrown⟩ := h.exists_new hins
  exact ⟨ins', hins', hgrown.reachable.trans hreach⟩

theorem forall_unreachable (h : GrownCode old new) (hall : ∀ ins ∈ old, ins.reachable = false) :
    ∀ ins ∈ new, ins.reachable = false := by
  intro ins' hins'
  obtain ⟨ins, hins, hgrown⟩ := h.exists_old hins'
  exact hgrown.reachable.trans (hall ins hins)

theorem isIdle_iff (h : GrownCode old new) : IsIdle haltMnemonic new ↔ IsIdle haltMnemonic old := by
  match h with
  | .nil => exact Iff.rfl
  | .cons hins .nil => simp [IsIdle, hins.reachable, hins.text]
  | .cons _ (.cons _ _) => simp [IsIdle]

/-- What is exposed was exposed before. Whether the instruction before falls through does not hang
on its count, and a count that is zero was no lower. -/
theorem exposed (h : GrownCode old new) (hsound : ∀ ins ∈ old, ins.Sound) {i : Nat}
    (hexposed : Exposed new i) : Exposed old i := by
  obtain ⟨ins', hins', hreach, hzero, hbefore⟩ := hexposed
  obtain ⟨ins, hins, hgrown⟩ := h.exists_old_at hins'
  have hlow := (hsound ins (List.mem_of_getElem? hins)).count
  have hhigh := hgrown.count
  refine ⟨ins, hins, hgrown.reachable.symm.trans hreach, by omega, ?_⟩
  cases i with
  | zero => exact nofun
  | succ i =>
    intro p hp
    obtain ⟨p', hp', hgrown'⟩ := exists_getElem?_of_forall₂ h hp
    rw [← hgrown'.fallsThrough]
    exact hbefore p' hp'

end GrownCode

/-! ## Classes -/

namespace CoverageClass

/-- A line of the class that could have run is in a class where as much of it ran or more. A line
that could not have run, or has nothing to run, stays in its class. -/
def RisesTo : CoverageClass → CoverageClass → Prop
  | .missed, c => c = .missed ∨ c = .mixed ∨ c = .full
  | .mixed, c => c = .mixed ∨ c = .full
  | .full, c => c = .full
  | .dead, c => c = .dead
  | .insignificant, c => c = .insignificant

variable {haltMnemonic : String} {old new : List Instruction} {c : CoverageClass}

/-- The class that describes the instructions rises to one that describes them when they have
grown. -/
theorem exists_describes_grown (h : GrownCode old new) (hsound : ∀ ins ∈ old, ins.Sound)
    (hc : Describes haltMnemonic old c) : ∃ c', Describes haltMnemonic new c' ∧ c.RisesTo c' := by
  have hnew : ∀ ins ∈ new, ins.Sound := h.sound hsound
  -- Something on the line could run, and what could run has run or is exposed.
  have htold : (∃ i, Exposed old i) → (∃ i, Exposed new i) ∨ RanSome new := by
    rintro ⟨i, ins, hins, hreach, -⟩
    obtain ⟨ins', hins', hgrown⟩ := h.exists_new (List.mem_of_getElem? hins)
    exact exposed_or_ranSome hnew nofun ⟨ins', hins', hgrown.reachable.trans hreach⟩
  cases c with
  | insignificant => exact ⟨.insignificant, h.isIdle_iff.2 hc, rfl⟩
  | dead =>
    obtain ⟨hidle, hnone⟩ := hc
    exact ⟨.dead, ⟨fun hnew => hidle (h.isIdle_iff.1 hnew), h.forall_unreachable hnone⟩, rfl⟩
  | full =>
    obtain ⟨hran, hexposed⟩ := hc
    refine ⟨.full, ⟨h.ranSome hran, ?_⟩, rfl⟩
    rintro ⟨i, hi⟩
    exact hexposed ⟨i, h.exposed hsound hi⟩
  | mixed =>
    obtain ⟨hexposed, hother⟩ := hc
    by_cases hnewly : ∃ i, Exposed new i
    · exact ⟨.mixed, ⟨hnewly, hother.imp h.ranSome h.exists_unreachable⟩, .inl rfl⟩
    · exact ⟨.full, ⟨(htold hexposed).resolve_left hnewly, hnewly⟩, .inr rfl⟩
  | missed =>
    obtain ⟨hexposed, -, hreachable⟩ := hc
    have hnone : ¬ ∃ ins ∈ new, ins.reachable = false := by
      rintro ⟨ins', hins', hreach⟩
      obtain ⟨ins, hins, hgrown⟩ := h.exists_old hins'
      exact hreachable ⟨ins, hins, hgrown.reachable.symm.trans hreach⟩
    by_cases hnewly : ∃ i, Exposed new i
    · by_cases hran : RanSome new
      · exact ⟨.mixed, ⟨hnewly, .inl hran⟩, .inr (.inl rfl)⟩
      · exact ⟨.missed, ⟨hnewly, hran, hnone⟩, .inl rfl⟩
    · exact ⟨.full, ⟨(htold hexposed).resolve_left hnewly, hnewly⟩, .inr (.inr rfl)⟩

theorem risesTo_of_grown (h : GrownCode old new) (hsound : ∀ ins ∈ old, ins.Sound) :
    (ofCounts (distinctCounts haltMnemonic old)).RisesTo
      (ofCounts (distinctCounts haltMnemonic new)) := by
  have hc : Describes haltMnemonic old (ofCounts (distinctCounts haltMnemonic old)) :=
    (ofCounts_eq_iff hsound).1 rfl
  obtain ⟨c', hc', hrises⟩ := exists_describes_grown h hsound hc
  rwa [ofCounts_of_describes (h.sound hsound) hc']

end CoverageClass

/-! ## Scripts -/

/-- The new script is the old one with counts that are as high or higher. -/
structure Script.Grown (old new : Script) : Prop where
  rest : { new with instructions := old.instructions } = old
  code : GrownCode old.instructions.toList new.instructions.toList

namespace Script.Grown

variable {old new : Script}

theorem refl (s : Script) : s.Grown s := ⟨rfl, List.forall₂_same.2 fun ins _ => .refl ins⟩

theorem trans {a b c : Script} (hab : a.Grown b) (hbc : b.Grown c) : a.Grown c := by
  refine ⟨?_, ?_⟩
  · have hrest := congrArg (fun s : Script => { s with instructions := a.instructions }) hbc.rest
    exact hrest.trans hab.rest
  · exact forall₂_trans (fun _ _ _ h h' => h.trans h') hab.code hbc.code

theorem filename (h : old.Grown new) : new.filename = old.filename :=
  (congrArg Script.filename h.rest :)

theorem name (h : old.Grown new) : new.name = old.name :=
  (congrArg Script.name h.rest :)

theorem uncounted (h : old.Grown new) : new.uncounted = old.uncounted := by
  have hcode : new.uncounted.instructions = old.uncounted.instructions := by
    have hsame : List.Forall₂ (· = ·) (old.instructions.toList.map (·.uncounted))
        (new.instructions.toList.map (·.uncounted)) :=
      List.rel_map (fun _ _ hins => hins.rest.symm) h.code
    rw [List.forall₂_eq_eq_eq] at hsame
    rw [Script.uncounted, Script.uncounted, ← Array.toList_inj, Array.toList_map, Array.toList_map,
      hsame]
  have hrest := congrArg (fun s : Script => { s with instructions := new.uncounted.instructions })
    h.rest
  exact hrest.trans (congrArg (fun code => { old with instructions := code }) hcode)

end Script.Grown

/-- Counts of another dump can only be added. -/
theorem Script.grown_mergeCounts (s : Script) {other : Script}
    (h : ∀ ins ∈ other.instructions.toList, ins.IsRecorded) : s.Grown (s.mergeCounts other) := by
  refine ⟨rfl, List.forall₂_of_length_eq_of_get (by simp [mergeCounts]) ?_⟩
  intro i hi hi'
  simp only [mergeCounts, Array.toList_mapIdx, List.get_eq_getElem, List.getElem_mapIdx]
  split
  · rename_i more hmore
    have hcount := (h more (Array.mem_toList_iff.2 (Array.mem_of_getElem? hmore))).count
    exact ⟨rfl, Int.le_add_of_nonneg_right hcount⟩
  · exact .refl _

/-! ## Lines -/

/-- The new line is the old one, with instructions that have grown under the same keys. -/
structure Line.Grown (old new : Line) : Prop where
  rest : { new with entries := old.entries } = old
  entries : List.Forall₂ (fun a b => a.1 = b.1 ∧ a.2.Grown b.2) old.entries new.entries

namespace Line.Grown

variable {old new : Line}

theorem refl (l : Line) : l.Grown l :=
  ⟨rfl, List.forall₂_same.2 fun entry _ => ⟨rfl, .refl entry.2⟩⟩

theorem code (h : old.Grown new) : GrownCode old.code new.code :=
  List.rel_map (fun _ _ hentry => hentry.2) h.entries

theorem keys (h : old.Grown new) : new.keys = old.keys := by
  have hkeys : List.Forall₂ (· = ·) old.keys new.keys :=
    List.rel_map (fun _ _ hentry => hentry.1) h.entries
  exact (List.forall₂_eq_eq_eq ▸ hkeys).symm

theorem haltMnemonic (h : old.Grown new) : new.haltMnemonic = old.haltMnemonic :=
  (congrArg Line.haltMnemonic h.rest :)

theorem settled (h : old.Grown new) : new.settled = old.settled :=
  (congrArg Line.settled h.rest :)

theorem hasKey (h : old.Grown new) (key : String) : new.hasKey key = old.hasKey key := by
  have hany : ∀ l : Line, l.hasKey key = l.keys.any (· = key) := by
    intro l
    rw [Line.hasKey, Line.keys, List.any_map]
    rfl
  rw [hany, hany, h.keys]

theorem add (h : old.Grown new) (key : String) {ins ins' : Instruction} (hins : ins.Grown ins') :
    (old.add key ins).Grown (new.add key ins') := by
  unfold Line.add
  rw [h.hasKey]
  split
  · exact h
  · refine ⟨congrArg (fun l : Line => { l with entries := old.entries ++ [(key, ins)] }) h.rest, ?_⟩
    exact List.rel_append h.entries (.cons ⟨rfl, hins⟩ .nil)

theorem risesTo (h : old.Grown new) (hsettled : old.settled = none)
    (hsound : ∀ ins ∈ old.code, ins.Sound) : old.coverage.RisesTo new.coverage := by
  rw [coverage, coverage, counts, counts, h.settled, hsettled, h.haltMnemonic]
  exact CoverageClass.risesTo_of_grown h.code hsound

end Line.Grown

/-! ## Files -/

/-- Both files have lines of the same numbers, and the new lines are the old ones, grown. -/
structure File.Grown (old new : File) : Prop where
  haltMnemonic : new.haltMnemonic = old.haltMnemonic
  lines : ∀ number, Option.Rel Line.Grown (old.line? number) (new.line? number)

/-- Where a script starts and ends has nothing to do with its counts. -/
theorem File.markEnds_uncounted (f : File) (s : Script) :
    f.markEnds s.uncounted = f.markEnds s := by
  have hfirst : s.uncounted.instructions[0]? = s.instructions[0]?.map (·.uncounted) :=
    Array.getElem?_map
  have hlast : s.uncounted.instructions.back? = s.instructions.back?.map (·.uncounted) :=
    Array.back?_map
  rw [markEnds, markEnds, hfirst, hlast]
  cases s.instructions[0]? with
  | none => rfl
  | some first =>
    cases s.instructions.back? with
    | none => rfl
    | some last => rfl

namespace File.Grown

variable {old new : File}

theorem refl (f : File) : f.Grown f := by
  refine ⟨rfl, fun number => ?_⟩
  cases f.line? number with
  | none => exact .none
  | some l => exact .some (.refl l)

theorem modifyLine (h : old.Grown new) (number : Int) {change change' : Line → Line}
    (hchange : ∀ l l' : Line, l.Grown l' → (change l).Grown (change' l')) :
    (old.modifyLine number change).Grown (new.modifyLine number change') := by
  refine ⟨h.haltMnemonic, fun number' => ?_⟩
  rw [line?_modifyLine, line?_modifyLine, h.haltMnemonic]
  split
  · refine .some (hchange _ _ ?_)
    exact rel_getD (h.lines number) (.refl _)
  · exact h.lines number'

theorem markEnds (h : old.Grown new) (s : Script) : (old.markEnds s).Grown (new.markEnds s) := by
  unfold File.markEnds
  split
  · refine (h.modifyLine _ ?_).modifyLine _ ?_
    · exact fun l l' hl => ⟨congrArg (fun l : Line => { l with startsFunction := true }) hl.rest,
        hl.entries⟩
    · exact fun l l' hl => ⟨congrArg (fun l : Line => { l with endsFunction := true }) hl.rest,
        hl.entries⟩
  · exact h

theorem addScript (h : old.Grown new) {s s' : Script} (hs : s.Grown s') :
    (old.addScript s).Grown (new.addScript s') := by
  rw [File.addScript, File.addScript, ← markEnds_uncounted _ s', hs.uncounted, markEnds_uncounted]
  refine markEnds (List.rel_foldl (P := File.Grown) ?_ h hs.code) s
  intro f f' hf ins ins' hins
  simp only
  rw [hins.sourceLine, File.keyOf, File.keyOf, hs.name, hins.address]
  exact hf.modifyLine _ fun l l' hl => hl.add _ hins

end File.Grown

/-- The scripts of a name are the same, grown. -/
theorem forall₂_ownScripts {scripts scripts' : List Script} (name : String)
    (h : List.Forall₂ Script.Grown scripts scripts') :
    List.Forall₂ Script.Grown (ownScripts scripts name) (ownScripts scripts' name) := by
  refine List.rel_filter ?_ h
  intro s s' hs
  simp only [hs.filename]

theorem File.grown_ofScripts {own own' : List Script} (name haltMnemonic : String)
    (h : List.Forall₂ Script.Grown own own') :
    (File.ofScripts name haltMnemonic own).Grown (File.ofScripts name haltMnemonic own') := by
  unfold File.ofScripts
  refine List.rel_foldl (P := File.Grown) ?_ (.refl _) h
  intro f f' hf s s' hs
  exact hf.addScript hs

/-- Where scripts have grown, so have the files that they make. -/
theorem grown_groupByFile {scripts scripts' : List Script} (haltMnemonic name : String)
    (h : List.Forall₂ Script.Grown scripts scripts') :
    Option.Rel File.Grown (groupByFile haltMnemonic scripts)[name]?
      (groupByFile haltMnemonic scripts')[name]? := by
  have hown := forall₂_ownScripts name h
  have hnil : ownScripts scripts' name = [] ↔ ownScripts scripts name = [] := by
    rw [← List.length_eq_zero_iff, ← hown.length_eq, List.length_eq_zero_iff]
  simp only [getElem?_groupByFile, hnil]
  split
  · exact .none
  · exact .some (File.grown_ofScripts _ _ hown)

/-! ## Rising files -/

/-- The file keeps its lines with what is registered on them, and their classes rise. -/
def File.RisesTo (old new : File) : Prop :=
  ∀ number, Option.Rel (fun l l' => l'.keys = l.keys ∧ l.coverage.RisesTo l'.coverage)
    (old.line? number) (new.line? number)

section Scripts

variable {haltMnemonic name : String} {scripts scripts' : List Script} {f : File}

/-- Scripts that are sound and grow make files whose lines rise. -/
theorem risesTo_groupByFile (haltMnemonic name : String) (hsound : ∀ s ∈ scripts, s.IsSound)
    (h : List.Forall₂ Script.Grown scripts scripts') :
    Option.Rel File.RisesTo (groupByFile haltMnemonic scripts)[name]?
      (groupByFile haltMnemonic scripts')[name]? := by
  refine rel_imp (grown_groupByFile haltMnemonic name h) fun f f' hf hgrown number => ?_
  refine rel_imp (hgrown.lines number) fun l l' hl hline => ⟨hline.keys, ?_⟩
  have hunasked := isUnasked_of_groupByFile hf number l hl
  exact hline.risesTo hunasked (forall_code_of_groupByFile hsound hf hl)

end Scripts

end BytecodeCoverage
