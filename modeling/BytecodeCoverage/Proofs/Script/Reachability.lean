-- SUMMARY: The search marks exactly the instructions that control can reach from the first one.
import BytecodeCoverage.Proofs.Script.Marks

/-!
# Reachability

Where control can go is a graph over the positions of a script, told without the search. The
search marks what that graph reaches from the first position, through positions that were not
marked before it. Soundness is an invariant of the agenda: each arrival on it is one that the
graph has. Completeness is a property of where the search ends: what it entered is closed
under the graph.
-/

namespace BytecodeCoverage

namespace Script

/-! ## The graph -/

/-- The instruction at a position goes on to the next one and nowhere else. -/
def IsLinear (s : Script) (i : Nat) : Prop :=
  ∃ ins, s.instructions[i]? = some ins ∧ flowKind ins.text = .linear

/-- The instruction at a position is not linear, and the other position is one of its
successors. -/
def JumpsTo (s : Script) (i j : Nat) : Prop :=
  ∃ ins targets, s.instructions[i]? = some ins ∧ flowKind ins.text ≠ .linear ∧
    s.successors i = .ok targets ∧ j ∈ targets

/-- Control can move from one position to the other. -/
inductive Leads (s : Script) : Nat → Nat → Prop where
  | next {i : Nat} (h : s.IsLinear i) : Leads s i (i + 1)
  | jump {i j : Nat} (h : s.JumpsTo i j) : Leads s i j

/-- Control can get from the first position to another through allowed positions only, both ends
included. -/
inductive Reached (s : Script) (allowed : Nat → Prop) : Nat → Prop where
  | start (h : allowed 0) : Reached s allowed 0
  | step {i j : Nat} (hi : Reached s allowed i) (hmove : s.Leads i j) (hj : allowed j) :
      Reached s allowed j

theorem Reached.allowed {s : Script} {allowed : Nat → Prop} {i : Nat} (h : s.Reached allowed i) :
    allowed i := by
  cases h with
  | start h => exact h
  | step _ _ hj => exact hj

theorem Reached.mono {s : Script} {allowed allowed' : Nat → Prop} {i : Nat}
    (h : s.Reached allowed i) (hsub : ∀ j, allowed j → allowed' j) : s.Reached allowed' i := by
  induction h with
  | start h => exact .start (hsub 0 h)
  | step _ hmove hj ih => exact .step ih hmove (hsub _ hj)

/-- The instruction at a position is there and not marked as reachable yet. -/
def Fresh (s : Script) (i : Nat) : Prop :=
  i < s.instructions.size ∧ ¬ Marked s.instructions .reachable i

/-- A search has to enter the position. -/
def Entered (s : Script) (i : Nat) : Prop := s.Reached s.Fresh i

/-- A walk starts at the position: it is the first, or a jump leads there. -/
def IsTarget (s : Script) (i : Nat) : Prop := i = 0 ∨ ∃ k, s.Entered k ∧ s.JumpsTo k i

/-! ## What entering a position puts on the agenda -/

/-- The arrivals that go on from a position are those that the graph has. -/
structure Onward (s : Script) (i : Nat) (next : List Arrival) : Prop where
  resolved : ∃ targets, s.successors i = .ok targets
  leads : ∀ j, s.Leads i j ↔ ∃ a ∈ next, a.position = j
  jumps : ∀ j, s.JumpsTo i j ↔ .jump j ∈ next

theorem onward_next {s : Script} {i : Nat} (h : s.IsLinear i) :
    s.Onward i [.fall (i + 1)] := by
  obtain ⟨ins, hins, hlinear⟩ := h
  have hnojump : ∀ j, ¬ s.JumpsTo i j := by
    rintro j ⟨ins', _, hins', hkind, _⟩
    rw [hins] at hins'
    cases hins'
    exact hkind hlinear
  refine ⟨⟨[i + 1], by simp [successors, successorsOf, hins, hlinear]⟩, ?_, ?_⟩
  · intro j
    constructor
    · intro hj
      cases hj with
      | next _ => exact ⟨_, .head _, rfl⟩
      | jump hj => exact absurd hj (hnojump j)
    · rintro ⟨a, ha, rfl⟩
      rw [List.mem_singleton.1 ha]
      exact .next ⟨ins, hins, hlinear⟩
  · intro j
    simp [hnojump j]

theorem onward_targets {s : Script} {i : Nat} {ins : Instruction} {targets : List Nat}
    (hins : s.instructions[i]? = some ins) (hkind : flowKind ins.text ≠ .linear)
    (htargets : s.successors i = .ok targets) : s.Onward i (targets.map .jump) := by
  have hjumps : ∀ j, s.JumpsTo i j ↔ j ∈ targets := by
    intro j
    constructor
    · rintro ⟨_, targets', _, _, htargets', hj⟩
      rw [htargets] at htargets'
      cases htargets'
      exact hj
    · intro hj
      exact ⟨ins, targets, hins, hkind, htargets, hj⟩
  refine ⟨⟨targets, htargets⟩, ?_, ?_⟩
  · intro j
    constructor
    · intro hj
      cases hj with
      | next hlinear =>
        obtain ⟨ins', hins', hlinear⟩ := hlinear
        rw [hins] at hins'
        cases hins'
        exact absurd hlinear hkind
      | jump hj => exact ⟨.jump j, List.mem_map_of_mem ((hjumps j).1 hj), rfl⟩
    · rintro ⟨a, ha, rfl⟩
      obtain ⟨k, hk, rfl⟩ := List.mem_map.1 ha
      exact .jump ((hjumps k).2 hk)
  · intro j
    simp [hjumps j]

/-- At a position that was not entered before, the code still has the instruction of the script
but for marks. -/
theorem fresh_of_unentered {s : Script} {code : Array Instruction} {i : Nat}
    (hgains : GainsMarks s.instructions code) (hi : i < code.size) (hr : ¬ code[i].reachable) :
    s.Fresh i := by
  refine ⟨hgains.size ▸ hi, ?_⟩
  intro hmarked
  exact hr ((marked_getElem hi).1 (hgains.marked hmarked))

theorem onward_linear {s : Script} {code : Array Instruction} {i : Nat}
    (hgains : GainsMarks s.instructions code) (hi : i < code.size)
    (hlinear : flowKind code[i].text = .linear) : s.Onward i [.fall (i + 1)] := by
  have hi' : i < s.instructions.size := hgains.size ▸ hi
  refine onward_next ⟨_, Array.getElem?_eq_getElem hi', ?_⟩
  rw [← hgains.text hi' hi]
  exact hlinear

theorem onward_jump {s : Script} {code : Array Instruction} {i : Nat} {targets : List Nat}
    (hgains : GainsMarks s.instructions code) (hi : i < code.size)
    (hkind : flowKind code[i].text ≠ .linear) (htargets : s.successors i = .ok targets) :
    s.Onward i (targets.map .jump) := by
  have hi' : i < s.instructions.size := hgains.size ▸ hi
  refine onward_targets (Array.getElem?_eq_getElem hi') ?_ htargets
  rw [← hgains.text hi' hi]
  exact hkind

/-! ## Soundness: every mark is one that the graph asks for -/

/-- Each mark was there before the search or is one that the graph asks for. -/
structure MarksJustified (s : Script) (code : Array Instruction) : Prop where
  reachable : ∀ i, Marked code .reachable i → Marked s.instructions .reachable i ∨ s.Entered i
  fallsThrough : ∀ i, Marked code .fallsThrough i →
    Marked s.instructions .fallsThrough i ∨ s.Entered i ∧ s.IsLinear i
  entryTarget : ∀ i, Marked code .entryTarget i →
    Marked s.instructions .entryTarget i ∨ s.IsTarget i

/-- The graph has the arrival: a fresh position that it comes to is one to enter. -/
structure Due (s : Script) (a : Arrival) : Prop where
  entered : s.Fresh a.position → s.Entered a.position
  target : ∀ i, a = .jump i → s.IsTarget i

theorem due_start (s : Script) : s.Due (.jump 0) := by
  refine ⟨fun h => .start h, ?_⟩
  intro i hi
  cases hi
  exact .inl rfl

theorem Onward.due {s : Script} {i : Nat} {next : List Arrival} (h : s.Onward i next)
    (hi : s.Entered i) : ∀ a ∈ next, s.Due a := by
  intro a ha
  refine ⟨fun hfresh => .step hi ((h.leads _).2 ⟨a, ha, rfl⟩) hfresh, ?_⟩
  rintro j rfl
  exact .inr ⟨i, hi, (h.jumps j).2 ha⟩

theorem Onward.due_append {s : Script} {i : Nat} {next rest : List Arrival} (h : s.Onward i next)
    (hi : s.Entered i) (hrest : ∀ a ∈ rest, s.Due a) : ∀ a ∈ next ++ rest, s.Due a := by
  intro a ha
  rcases List.mem_append.1 ha with ha | ha
  · exact h.due hi a ha
  · exact hrest a ha

theorem MarksJustified.arrive {s : Script} {code : Array Instruction} {a : Arrival}
    (hj : s.MarksJustified code) (hdue : s.Due a) (h : a.position < code.size) :
    s.MarksJustified (code.set a.position (a.mark code[a.position]) h) := by
  refine ⟨?_, ?_, ?_⟩
  · intro i hi
    rcases (marked_set_mark h _ _).1 hi with hi | ⟨hm, _⟩
    · exact hj.reachable i hi
    · cases hm
  · intro i hi
    rcases (marked_set_mark h _ _).1 hi with hi | ⟨hm, _⟩
    · exact hj.fallsThrough i hi
    · cases hm
  · intro i hi
    rcases (marked_set_mark h _ _).1 hi with hi | ⟨_, ha⟩
    · exact hj.entryTarget i hi
    · exact .inr (hdue.target i ha)

theorem MarksJustified.enter {s : Script} {code : Array Instruction} {a : Arrival}
    (hj : s.MarksJustified code) (hgains : GainsMarks s.instructions code) (hdue : s.Due a)
    (h : a.position < code.size) (hr : ¬ code[a.position].reachable) :
    s.MarksJustified (code.set a.position (a.mark code[a.position]).enter h) := by
  have hentered := hdue.entered (fresh_of_unentered hgains h hr)
  have harrived := hj.arrive hdue h
  refine ⟨?_, ?_, ?_⟩
  · intro i hi
    rcases (marked_set_enter h _ _).1 hi with hi | ⟨rfl, _⟩
    · exact harrived.reachable i hi
    · exact .inr hentered
  · intro i hi
    rcases (marked_set_enter h _ _).1 hi with hi | ⟨rfl, hm | ⟨_, hlinear⟩⟩
    · exact harrived.fallsThrough i hi
    · cases hm
    · have hi' : a.position < s.instructions.size := hgains.size ▸ h
      rw [hgains.text hi' h] at hlinear
      exact .inr ⟨hentered, _, Array.getElem?_eq_getElem hi', hlinear⟩
  · intro i hi
    rcases (marked_set_enter h _ _).1 hi with hi | ⟨_, hm | ⟨hm, _⟩⟩
    · exact harrived.entryTarget i hi
    · cases hm
    · cases hm

/-- Whatever ends the search, every mark that it leaves is justified. -/
theorem explore_justified {s : Script} {code : Array Instruction} {agenda : List Arrival}
    {trail : List Nat} (hgains : GainsMarks s.instructions code) (hj : s.MarksJustified code)
    (hagenda : ∀ a ∈ agenda, s.Due a) :
    s.MarksJustified (s.explore code agenda trail).instructions := by
  fun_induction Script.explore s code agenda trail with
  | case1 code => exact hj
  | case2 code trail a rest h ins hr ih =>
    have hdue := hagenda a (.head _)
    exact ih (hgains.trans (.set h (.mark a ins))) (hj.arrive hdue h)
      fun b hb => hagenda b (.tail _ hb)
  | case3 code trail a rest h ins hr entered trail' hlinear ih =>
    have hdue := hagenda a (.head _)
    have hentered := hdue.entered (fresh_of_unentered hgains h hr)
    exact ih (hgains.trans (.set h ((Instruction.Gains.mark a ins).trans (.enter _))))
      (hj.enter hgains hdue h hr)
      ((onward_linear hgains h hlinear).due_append hentered fun b hb => hagenda b (.tail _ hb))
  | case4 code trail a rest h ins hr entered trail' hlinear targets htargets ih =>
    have hdue := hagenda a (.head _)
    have hentered := hdue.entered (fresh_of_unentered hgains h hr)
    exact ih (hgains.trans (.set h ((Instruction.Gains.mark a ins).trans (.enter _))))
      (hj.enter hgains hdue h hr)
      ((onward_jump hgains h hlinear htargets).due_append hentered
        fun b hb => hagenda b (.tail _ hb))
  | case5 code trail a rest h ins hr entered trail' hlinear e htargets =>
    exact hj.enter hgains (hagenda a (.head _)) h hr
  | case6 code trail a rest h ih =>
    exact ih hgains hj fun b hb => hagenda b (.tail _ hb)

theorem search_justified (s : Script) : s.MarksJustified s.search.instructions := by
  refine explore_justified (.refl _) ⟨fun i hi => .inl hi, fun i hi => .inl hi,
    fun i hi => .inl hi⟩ ?_
  intro a ha
  rw [List.mem_singleton.1 ha]
  exact due_start s

/-! ## Completeness: what a search enters is closed under the graph -/

/-- All that the graph asks for because of a position that was entered is marked. -/
structure Closed (s : Script) (found : Array Instruction) (i : Nat) : Prop where
  resolved : ∃ targets, s.successors i = .ok targets
  fallsThrough : s.IsLinear i → Marked found .fallsThrough i
  leads : ∀ j, s.Leads i j → j < found.size → Marked found .reachable j
  jumps : ∀ j, s.JumpsTo i j → j < found.size → Marked found .entryTarget j

/-- What a search that started with some code and some agenda has found: the arrivals have left
their marks, and what was entered is closed. -/
structure Settled (s : Script) (code found : Array Instruction) (agenda : List Arrival) :
    Prop where
  arrivals : ∀ a ∈ agenda, a.position < found.size → Marked found .reachable a.position
  targets : ∀ j, .jump j ∈ agenda → j < found.size → Marked found .entryTarget j
  closed : ∀ i, Marked found .reachable i → ¬ Marked code .reachable i → s.Closed found i

theorem Settled.nil (s : Script) (code : Array Instruction) : s.Settled code code [] := by
  refine ⟨?_, ?_, fun i hi hn => absurd hi hn⟩
  · intro a ha
    cases ha
  · intro j hj
    cases hj

theorem Settled.skip {s : Script} {code found : Array Instruction} {a : Arrival}
    {rest : List Arrival} (h : s.Settled code found rest) (hgains : GainsMarks code found)
    (ha : ¬ a.position < code.size) : s.Settled code found (a :: rest) := by
  refine ⟨?_, ?_, h.closed⟩
  · intro b hb hlt
    rcases List.mem_cons.1 hb with rfl | hb
    · exact absurd (hgains.size ▸ hlt) ha
    · exact h.arrivals b hb hlt
  · intro j hj hlt
    rcases List.mem_cons.1 hj with rfl | hj
    · exact absurd (hgains.size ▸ hlt) ha
    · exact h.targets j hj hlt

/-- An arrival at a position that ends up as reachable leaves all its marks. -/
theorem Settled.cons {s : Script} {code found : Array Instruction} {a : Arrival}
    {rest : List Arrival} (h : s.Settled code found rest)
    (hreach : Marked found .reachable a.position)
    (htarget : ∀ j, a = .jump j → Marked found .entryTarget j) :
    s.Settled code found (a :: rest) := by
  refine ⟨?_, ?_, h.closed⟩
  · intro b hb hlt
    rcases List.mem_cons.1 hb with rfl | hb
    · exact hreach
    · exact h.arrivals b hb hlt
  · intro j hj hlt
    rcases List.mem_cons.1 hj with hj | hj
    · exact htarget j hj.symm
    · exact h.targets j hj hlt

theorem Settled.arrive {s : Script} {code found : Array Instruction} {a : Arrival}
    {rest : List Arrival} (h : a.position < code.size) (hr : code[a.position].reachable)
    (hgains : GainsMarks (code.set a.position (a.mark code[a.position]) h) found)
    (hrest : s.Settled (code.set a.position (a.mark code[a.position]) h) found rest) :
    s.Settled code found (a :: rest) := by
  have hold : ∀ m j, Marked code m j →
      Marked (code.set a.position (a.mark code[a.position]) h) m j :=
    fun m j hm => (marked_set_mark h m j).2 (.inl hm)
  refine Settled.cons ⟨hrest.arrivals, hrest.targets, ?_⟩ ?_ ?_
  · intro i hi hn
    refine hrest.closed i hi fun hm => ?_
    rcases (marked_set_mark h _ _).1 hm with hm | ⟨hm, _⟩
    · exact hn hm
    · cases hm
  · exact hgains.marked (hold _ _ ((marked_getElem h).2 hr))
  · intro j hj
    exact hgains.marked ((marked_set_mark h _ _).2 (.inr ⟨rfl, hj⟩))

theorem Settled.enter {s : Script} {code found : Array Instruction} {a : Arrival}
    {next rest : List Arrival} (hstart : GainsMarks s.instructions code)
    (h : a.position < code.size) (hnext : s.Onward a.position next)
    (hgains : GainsMarks (code.set a.position (a.mark code[a.position]).enter h) found)
    (hrest : s.Settled (code.set a.position (a.mark code[a.position]).enter h) found
      (next ++ rest)) :
    s.Settled code found (a :: rest) := by
  have hreach : Marked found .reachable a.position :=
    hgains.marked ((marked_set_enter h _ _).2 (.inr ⟨rfl, .inl rfl⟩))
  refine Settled.cons ⟨?_, ?_, ?_⟩ hreach ?_
  · exact fun b hb => hrest.arrivals b (List.mem_append_right _ hb)
  · exact fun j hj => hrest.targets j (List.mem_append_right _ hj)
  · intro i hi hn
    by_cases hia : a.position = i
    · subst hia
      refine ⟨hnext.resolved, ?_, ?_, ?_⟩
      · rintro ⟨ins, hins, hlinear⟩
        obtain ⟨hi', rfl⟩ := Array.getElem?_eq_some_iff.1 hins
        rw [← hstart.text hi' h] at hlinear
        exact hgains.marked ((marked_set_enter h _ _).2 (.inr ⟨rfl, .inr ⟨rfl, hlinear⟩⟩))
      · intro j hj hlt
        obtain ⟨b, hb, rfl⟩ := (hnext.leads j).1 hj
        exact hrest.arrivals b (List.mem_append_left _ hb) hlt
      · intro j hj hlt
        exact hrest.targets j (List.mem_append_left _ ((hnext.jumps j).1 hj)) hlt
    · refine hrest.closed i hi fun hm => ?_
      rcases (marked_set_enter h _ _).1 hm with hm | ⟨hm, _⟩
      · rcases (marked_set_mark h _ _).1 hm with hm | ⟨hm, _⟩
        · exact hn hm
        · cases hm
      · exact hia hm
  · intro j hj
    exact hgains.marked ((marked_set_enter h _ _).2 (.inl ((marked_set_mark h _ _).2
      (.inr ⟨rfl, hj⟩))))

/-- A search that comes to the end of its agenda settles it. -/
theorem explore_settled {s : Script} {code : Array Instruction} {agenda : List Arrival}
    {trail : List Nat} (hstart : GainsMarks s.instructions code)
    (hend : (s.explore code agenda trail).fault = none) :
    s.Settled code (s.explore code agenda trail).instructions agenda := by
  fun_induction Script.explore s code agenda trail with
  | case1 code => exact .nil s code
  | case2 code trail a rest h ins hr ih =>
    have hstart' := hstart.trans (.set h (.mark a ins))
    exact .arrive h hr (s.explore_gainsMarks _ _ _) (ih hstart' hend)
  | case3 code trail a rest h ins hr entered trail' hlinear ih =>
    have hstart' := hstart.trans (.set h ((Instruction.Gains.mark a ins).trans (.enter _)))
    exact .enter hstart h (onward_linear hstart h hlinear) (s.explore_gainsMarks _ _ _)
      (ih hstart' hend)
  | case4 code trail a rest h ins hr entered trail' hlinear targets htargets ih =>
    have hstart' := hstart.trans (.set h ((Instruction.Gains.mark a ins).trans (.enter _)))
    exact .enter hstart h (onward_jump hstart h hlinear htargets) (s.explore_gainsMarks _ _ _)
      (ih hstart' hend)
  | case5 code trail a rest h ins hr entered trail' hlinear e htargets => cases hend
  | case6 code trail a rest h ih => exact (ih hstart hend).skip (s.explore_gainsMarks _ _ _) h

/-! ## The marks after a search -/

theorem search_gainsMarks (s : Script) : GainsMarks s.instructions s.search.instructions :=
  s.explore_gainsMarks _ _ _

theorem search_settled {s : Script} (h : s.search.fault = none) :
    s.Settled s.instructions s.search.instructions [.jump 0] :=
  explore_settled (.refl _) h

theorem analyze_eq_marked {s : Script} (h : s.search.fault = none) :
    s.analyze = .ok s.marked := by
  rw [analyze, h]

theorem analyze_eq_ok {s s' : Script} (h : s.analyze = .ok s') :
    s.search.fault = none ∧ s' = s.marked := by
  unfold analyze at h
  split at h
  · rename_i hend
    cases h
    exact ⟨hend, rfl⟩
  · cases h

/-- What the graph reaches through fresh positions is marked as reachable and closed. -/
theorem Entered.settled {s : Script} (h : s.search.fault = none) {i : Nat} (hi : s.Entered i) :
    Marked s.search.instructions .reachable i ∧ s.Closed s.search.instructions i := by
  have hsettled := search_settled h
  have hsize := (search_gainsMarks s).size
  have hreach : Marked s.search.instructions .reachable i := by
    induction hi with
    | start hfresh => exact hsettled.arrivals _ (.head _) (hsize ▸ hfresh.1)
    | step hi hmove hfresh ih =>
      exact (hsettled.closed _ ih hi.allowed.2).leads _ hmove (hsize ▸ hfresh.1)
  exact ⟨hreach, hsettled.closed i hreach hi.allowed.2⟩

theorem IsTarget.marked {s : Script} (h : s.search.fault = none) {i : Nat} (hi : s.IsTarget i)
    (hlt : i < s.instructions.size) : Marked s.search.instructions .entryTarget i := by
  have hlt' : i < s.search.instructions.size := (search_gainsMarks s).size ▸ hlt
  rcases hi with rfl | ⟨k, hk, hjump⟩
  · exact (search_settled h).targets 0 (.head _) hlt'
  · exact (hk.settled h).2.jumps i hjump hlt'

/-- The first instruction of a searched script is marked as reachable and as a target. -/
theorem search_first {s : Script} (h : s.search.fault = none) (hlt : 0 < s.instructions.size) :
    Marked s.search.instructions .reachable 0 ∧ Marked s.search.instructions .entryTarget 0 := by
  refine ⟨?_, IsTarget.marked h (.inl rfl) hlt⟩
  exact (search_settled h).arrivals _ (.head _) ((search_gainsMarks s).size ▸ hlt)

theorem explore_nil (s : Script) (code : Array Instruction) (trail : List Nat) :
    s.explore code [] trail = ⟨code, trail.reverse, none⟩ := by
  rw [explore]

theorem explore_visited (s : Script) {code : Array Instruction} {a : Arrival}
    {rest : List Arrival} {trail : List Nat} (h : a.position < code.size)
    (hr : code[a.position].reachable) :
    s.explore code (a :: rest) trail =
      s.explore (code.set a.position (a.mark code[a.position]) h) rest trail := by
  rw [explore, dif_pos h]
  exact dif_pos hr

theorem explore_past_end (s : Script) {code : Array Instruction} {a : Arrival}
    {rest : List Arrival} {trail : List Nat} (h : ¬ a.position < code.size) :
    s.explore code (a :: rest) trail = s.explore code rest trail := by
  rw [explore, dif_neg h]

/-- A search that finds the first instruction marked has nothing to do. -/
theorem explore_of_first_marked (s : Script) {code : Array Instruction}
    (hfirst : 0 < code.size → Marked code .reachable 0 ∧ Marked code .entryTarget 0) :
    s.explore code [.jump 0] [] = ⟨code, [], none⟩ := by
  by_cases h : (Arrival.jump 0).position < code.size
  · have hreach : code[(Arrival.jump 0).position].reachable :=
      (marked_getElem h).1 (hfirst h).1
    have htarget : code[(Arrival.jump 0).position].entryTarget :=
      (marked_getElem h).1 (hfirst h).2
    have hsame : (Arrival.jump 0).mark code[(Arrival.jump 0).position] =
        code[(Arrival.jump 0).position] := by
      simp only [Arrival.mark]
      rw [← htarget]
    rw [explore_visited s h hreach, explore_nil, hsame, Array.set_getElem_self]
    rfl
  · rw [explore_past_end s h, explore_nil]
    rfl

theorem search_marked {s : Script} (h : s.search.fault = none) :
    s.marked.search = ⟨s.marked.instructions, [], none⟩ := by
  refine explore_of_first_marked _ fun hlt => search_first h ?_
  exact (search_gainsMarks s).size ▸ hlt

theorem analyze_marked {s : Script} (h : s.search.fault = none) :
    s.marked.analyze = .ok s.marked := by
  have hsame : s.marked.marked = s.marked := by
    rw [marked, search_marked h]
  rw [analyze_eq_marked (by rw [search_marked h]), hsame]

/-- The search is exact. Where it ends without a fault, the instructions are as they were but for
marks. Reachable are those that were so before and those that the graph reaches from the first
position through positions that were not. Of the latter the linear ones fall through, and their
jumps, with the start of the script, have targets that are marked as such. All their successors
resolve. In a script that has no marks the graph alone decides, and another search changes
nothing. -/
theorem analyze_marks_reached {s s' : Script} (h : s.analyze = .ok s') :
    s' = { s with instructions := s'.instructions } ∧
    (∀ i : Nat,
      (s'.instructions[i]?).map (·.unmarked) = (s.instructions[i]?).map (·.unmarked)) ∧
    (∀ i, Marked s'.instructions .reachable i ↔
      Marked s.instructions .reachable i ∨ s.Entered i) ∧
    (∀ i, Marked s'.instructions .fallsThrough i ↔
      Marked s.instructions .fallsThrough i ∨ s.Entered i ∧ s.IsLinear i) ∧
    (∀ i, Marked s'.instructions .entryTarget i ↔
      Marked s.instructions .entryTarget i ∨
        i < s.instructions.size ∧ (i = 0 ∨ ∃ k, s.Entered k ∧ s.JumpsTo k i)) ∧
    (∀ i, s.Entered i → ∃ targets, s.successors i = .ok targets) ∧
    ((∀ i, ¬ Marked s.instructions .reachable i) →
      ∀ i, Marked s'.instructions .reachable i ↔ s.Reached (· < s.instructions.size) i) ∧
    s'.analyze = .ok s' := by
  obtain ⟨hend, rfl⟩ := analyze_eq_ok h
  have hgains := search_gainsMarks s
  have hsound := search_justified s
  have hreachable : ∀ i, Marked s.marked.instructions .reachable i ↔
      Marked s.instructions .reachable i ∨ s.Entered i := by
    intro i
    refine ⟨hsound.reachable i, ?_⟩
    rintro (hi | hi)
    · exact hgains.marked hi
    · exact (hi.settled hend).1
  refine ⟨rfl, hgains.unmarked, hreachable, ?_, ?_, ?_, ?_, ?_⟩
  · intro i
    refine ⟨hsound.fallsThrough i, ?_⟩
    rintro (hi | ⟨hi, hlinear⟩)
    · exact hgains.marked hi
    · exact (hi.settled hend).2.fallsThrough hlinear
  · intro i
    constructor
    · intro hi
      exact (hsound.entryTarget i hi).imp id fun htarget => ⟨hgains.size ▸ hi.lt_size, htarget⟩
    · rintro (hi | ⟨hlt, htarget⟩)
      · exact hgains.marked hi
      · exact IsTarget.marked hend htarget hlt
  · intro i hi
    exact (hi.settled hend).2.resolved
  · intro hnone i
    rw [hreachable i]
    constructor
    · rintro (hi | hi)
      · exact absurd hi (hnone i)
      · exact hi.mono fun j hj => hj.1
    · intro hi
      exact .inr (hi.mono fun j hj => ⟨hj, hnone j⟩)
  · exact analyze_marked hend

/-- A loop, a jump to itself, and an instruction that nothing leads to. -/
def looping : Script :=
  { filename := "a"
    startLine := 1
    instructions :=
      #[{ address := 0, sourceLine := 1, text := "pop" },
        { address := 1, sourceLine := 1, text := "ifeq 0" },
        { address := 2, sourceLine := 2, text := "goto 2" },
        { address := 3, sourceLine := 3, text := "pop" }] }

theorem analyze_looping :
    looping.analyze = .ok looping.marked ∧
    ∀ i, Marked looping.marked.instructions .reachable i ↔ looping.Reached (· < 4) i := by
  have hok : looping.analyze = .ok looping.marked := analyze_eq_marked (by decide +kernel)
  have hunmarked : ∀ ins ∈ looping.instructions, ins.reachable = false := by decide
  obtain ⟨_, _, _, _, _, _, hfresh, _⟩ := analyze_marks_reached hok
  refine ⟨hok, hfresh ?_⟩
  rintro i ⟨ins, hins, hr⟩
  rw [Instruction.has, hunmarked ins (Array.mem_of_getElem? hins)] at hr
  cases hr

end Script

end BytecodeCoverage
