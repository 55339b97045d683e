-- SUMMARY: How the command loads traces: all of them, or up to the first that is not taken.
import BytecodeCoverage.Command.Basic
import BytecodeCoverage.Proofs.Engine.Totals
import BytecodeCoverage.Proofs.Shell.Loading

/-!
# Traces

The command announces every change in its log, so a load fails for what is wrong with the text, and
also where a change cannot be told since a number in it is too long. A text is taken if neither
happens, and what is stored then is what the text shows.
-/

namespace BytecodeCoverage

/-! ## Announcing -/

namespace Workbench

variable {g : Grammar} {w : Workbench} {text : String}

end Workbench

/-! ## Loading -/

/-- All that a text changes in a store can be told. -/
def CanBeTold (g : Grammar) (s : Store) (text : String) : Prop :=
  ∀ a ∈ s.difference (s.absorb (Engine.shownBy g text))
    ((Engine.shownBy g text).map (·.filename)), a.notice.IsTellable

section

variable {g : Grammar} {text : String}

end

namespace Workbench

variable {g : Grammar} {w : Workbench} {text : String}

end Workbench

namespace Command

variable {g : Grammar} {files : Files} {s : Store} {text : String} {texts : List String}

/-- Nothing is wrong with a text, and all that it changes can be told. -/
def IsTaken (g : Grammar) (s : Store) (text : String) : Prop :=
  Engine.textFault g text = none ∧ CanBeTold g s text

/-- The command breaks off over a text. -/
inductive BreaksAt (g : Grammar) (s : Store) (text : String) : Prop where
  | fault {fault : Fault} (h : Engine.textFault g text = some fault)
      (hfault : fault.isReported = false) : BreaksAt g s text
  | telling (h : ¬ CanBeTold g s text) : BreaksAt g s text

/-- All texts are taken, each into the store that those before it have left. -/
inductive AreTaken (g : Grammar) : Store → List String → Prop where
  | nil {s : Store} : AreTaken g s []
  | cons {s : Store} {text : String} {rest : List String} (h : IsTaken g s text)
      (hrest : AreTaken g (s.absorb (Engine.shownBy g text)) rest) : AreTaken g s (text :: rest)

/-- The command breaks off over one of the texts, and those before it are taken. -/
inductive BreaksOff (g : Grammar) : Store → List String → Prop where
  | here {s : Store} {text : String} {rest : List String} (h : BreaksAt g s text) :
      BreaksOff g s (text :: rest)
  | later {s : Store} {text : String} {rest : List String} (h : IsTaken g s text)
      (hrest : BreaksOff g (s.absorb (Engine.shownBy g text)) rest) :
      BreaksOff g s (text :: rest)

theorem IsTaken.not_breaksAt (h : IsTaken g s text) : ¬ BreaksAt g s text := by
  rintro (⟨hsome, -⟩ | huntold)
  · rw [h.1] at hsome
    cases hsome
  · exact huntold h.2

end Command

/-! ## Traces -/

/-- What a store becomes with what some texts show, one after the other. -/
def Store.absorbTexts (g : Grammar) (s : Store) (texts : List String) : Store :=
  texts.foldl (fun s text => s.absorb (Engine.shownBy g text)) s

theorem sized_shownBy (g : Grammar) (text : String) :
    ∀ new ∈ Engine.shownBy g text, new.Sized := by
  unfold Engine.shownBy
  split
  · rename_i dump hdump
    exact sized_of_dumpOf hdump
  · exact nofun

theorem Store.Sized.absorbTexts {s : Store} (h : s.Sized) (g : Grammar) (texts : List String) :
    (s.absorbTexts g texts).Sized := by
  induction texts generalizing s with
  | nil => exact h
  | cons text rest ih => exact ih (h.absorb (wellFormed_shownBy g text) (sized_shownBy g text))

namespace Command

variable {g : Grammar} {files : Files} {s : Store} {text : String} {texts : List String}
  {w : Workbench} {path : Path} {paths : List Path}

/-- What the end of the loading of some texts tells of them. -/
def Outcome (g : Grammar) (s : Store) (texts : List String) : Workbench × Option Stop → Prop
  | (w, none) => AreTaken g s texts ∧ w.store = s.absorbTexts g texts
  | (_, some .failed) => ¬ AreTaken g s texts ∧ ¬ BreaksOff g s texts
  | (_, some (.crashed _)) => BreaksOff g s texts

theorem Outcome.cons (h : IsTaken g s text) {result : Workbench × Option Stop}
    (hrest : Outcome g (s.absorb (Engine.shownBy g text)) texts result) :
    Outcome g s (text :: texts) result := by
  rcases result with ⟨w, _ | _ | crash⟩
  · exact ⟨.cons h hrest.1, hrest.2⟩
  · obtain ⟨hnot, hgoes⟩ := hrest
    refine ⟨?_, ?_⟩
    · rintro (_ | ⟨-, hmore⟩)
      exact hnot hmore
    · rintro (hhere | ⟨-, hmore⟩)
      · exact h.not_breaksAt hhere
      · exact hgoes hmore
  · exact .later h hrest

end Command

end BytecodeCoverage
