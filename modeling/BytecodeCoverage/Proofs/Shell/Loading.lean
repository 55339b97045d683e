-- SUMMARY: What a load prints: the difference that it makes to the store, line by line.
import BytecodeCoverage.Proofs.Engine.Totals
import BytecodeCoverage.Proofs.Store.Legibility
import BytecodeCoverage.Shell.Basic

/-!
# Loading

The recorder takes every event and does nothing else, so with no other observer a load changes the
store as its text says. The events are told when the load is over. By then the store may have gone
on from what it was at the event, but not in what the event is about.
-/

namespace BytecodeCoverage

/-! ## Printing -/

namespace Turn

theorem output_printing_concat (lines : List String) (line : String) :
    (printing (lines ++ [line])).output = (printing lines).output ++ line ++ "\n" := by
  rw [printing, List.foldl_append]
  rfl

theorem printing_followedBy (lines : List String) (line : String) :
    (printing lines).followedBy (printing [line]) = printing (lines ++ [line]) := by
  refine congrArg (Turn.mk · .goesOn) (Eq.trans ?_ (output_printing_concat lines line).symm)
  rw [String.append_assoc]
  exact congrArg ((printing lines).output ++ ·) (congrArg (· ++ "\n") (String.empty_append))

/-- Every line is printed with its end. -/
theorem toList_output_printing (lines : List String) :
    (printing lines).output.toList = lines.flatMap fun line => line.toList ++ ['\n'] := by
  induction lines using List.reverseRecOn with
  | nil => rfl
  | append_singleton lines line ih =>
    rw [output_printing_concat, String.toList_append, String.toList_append, ih,
      List.flatMap_append, List.flatMap_singleton, List.append_assoc]
    rfl

end Turn

/-- The line that tells an announcement. -/
def Announcement.line (a : Announcement) : String := a.kind.handlerName ++ ": " ++ a.notice.text

namespace Shell

/-- By induction on the events, the last of which is printed last. -/
theorem listEvents_eq_printing {store : Store} {events : List Event} {line : Event → String}
    (h : ∀ event ∈ events, eventLine store event = .ok (line event)) :
    listEvents store events = .printing (events.map line) := by
  induction events using List.reverseRecOn with
  | nil => rfl
  | append_singleton events event ih =>
    obtain ⟨hevents, hevent⟩ := List.forall_mem_append.1 h
    have hbefore := ih hevents
    unfold listEvents at hbefore ⊢
    rw [List.foldl_append, hbefore, List.foldl_cons, List.foldl_nil,
      List.forall_mem_singleton.1 hevent, List.map_append]
    exact Turn.printing_followedBy _ _

end Shell

/-! ## Recording -/

namespace Journal

/-- The journal with more events recorded. -/
def recordAll (j : Journal) (events : List Event) : Journal :=
  { j with recorder := ⟨j.recorder.events ++ events⟩ }

theorem recorder_logAll (j : Journal) (records : List LogRecord) :
    (j.logAll records).recorder = j.recorder := by
  induction records generalizing j with
  | nil => rfl
  | cons r rest ih => exact ih (j.log r)

end Journal

namespace Workbench

/-- There is one observer, and no parse is running. -/
structure Heard (w : Workbench) (observer : ObserverId) : Prop where
  registry : w.registry = [observer]
  idle : w.parsing = false

variable {g : Grammar} {w : Workbench} {text : String}

/-- By induction on the changes: each is made, and its event recorded. -/
theorem commit_of_recording (nested : Engine.Nested Journal) (changes : List Change)
    {w : Workbench} (h : w.registry = [Journal.recording]) :
    Engine.commit Journal.behaviour nested w changes =
      ({ w with
          store := changes.foldl Store.apply w.store
          memory := w.memory.recordAll (changes.map Change.event) }, none) := by
  induction changes generalizing w with
  | nil => simp [Engine.commit, Journal.recordAll]
  | cons change rest ih =>
    have hnotify : Engine.notify Journal.behaviour nested change.event (w.make change) w.registry =
        ({ w.make change with memory := Journal.record change.event w.memory }, none) := by
      rw [h]
      rfl
    rw [Engine.commit_of_notified hnotify]
    refine (ih ?_).trans ?_
    · exact h
    · simp [Engine.make, Journal.recordAll, Journal.record, Recorder.record]

/-- A text that cannot be read changes neither the store nor the record. -/
theorem load_of_error (hw : w.Heard Journal.recording) {fault : Fault}
    (h : dumpOf g text = .error fault) :
    ∃ memory, memory.recorder = w.memory.recorder ∧
      w.load g text = ({ w with memory }, .error fault) := by
  let j := w.memory.logAll ((traceRemarks g text).map Remark.toLog)
  exact ⟨j, Journal.recorder_logAll w.memory _,
    Engine.parse_of_error (e := { w with memory := j }) hw.idle h⟩

/-- A text is loaded if nobody raises at its changes, as far as there is room for its files. -/
theorem load_of_committed (hidle : w.parsing = false) {dump : Dump} (h : dumpOf g text = .ok dump)
    {memory : Journal}
    (hcommit : Engine.commit Journal.behaviour (Engine.inner g Journal.behaviour)
        (Engine.begin
          { w with memory := w.memory.logAll ((traceRemarks g text).map Remark.toLog) })
        (w.store.changes dump.snapshots) =
      ({ w with store := w.store.absorb dump.snapshots, parsing := true, memory }, none)) :
    w.load g text =
      ({ w with store := w.store.absorb dump.snapshots, memory },
        match dump.fault with
        | none => .ok (w.store.absorb dump.snapshots).snapshots
        | some fault => .error fault) := by
  let j := w.memory.logAll ((traceRemarks g text).map Remark.toLog)
  unfold load
  rw [Engine.parse_of_dump (e := { w with memory := j }) hidle h, hcommit]
  cases dump.fault with
  | none => simp [hidle]
  | some fault => simp [hidle]

theorem load_of_dump (hw : w.Heard Journal.recording) {dump : Dump} (h : dumpOf g text = .ok dump)
    (hfault : dump.fault = none) :
    ∃ memory, memory.recorder.events =
        w.memory.recorder.events ++ (w.store.changes dump.snapshots).map Change.event ∧
      w.load g text =
        ({ w with store := w.store.absorb dump.snapshots, memory },
          .ok (w.store.absorb dump.snapshots).snapshots) := by
  let j := w.memory.logAll ((traceRemarks g text).map Remark.toLog)
  refine ⟨j.recordAll ((w.store.changes dump.snapshots).map Change.event), ?_, ?_⟩
  · rw [Journal.recordAll, Journal.recorder_logAll]
  · have hload := load_of_committed hw.idle h (commit_of_recording _ _ hw.registry)
    rw [hfault] at hload
    exact hload

/-- All changes are announced, since the recorder never raises. -/
theorem Heard.dispatched_of_dump (hw : w.Heard Journal.recording) {dump : Dump}
    (h : dumpOf g text = .ok dump) :
    w.dispatched g Journal.behaviour text =
      w.store.announcements (w.store.changes dump.snapshots) := by
  have hcommit := commit_of_recording (Engine.inner g Journal.behaviour)
    (w.store.changes dump.snapshots) (w := w.begin) hw.registry
  exact Engine.dispatched_of_commit hw.idle h (congrArg Prod.snd hcommit)

end Workbench

/-! ## An engine without observers -/

namespace Engine

variable {g : Grammar} {text : String} {e : Engine Unit}

theorem quiet_deaf : deaf.Quiet := nofun

theorem store_parse_deaf (he : e.parsing = false) {dump : Dump} (h : dumpOf g text = .ok dump) :
    (e.parse g deaf text).1.store = e.store.absorb dump.snapshots := by
  rw [(parse_of_quiet g text quiet_deaf he).1, shownBy, h]

theorem dispatched_deaf (he : e.parsing = false) {dump : Dump} (h : dumpOf g text = .ok dump) :
    e.dispatched g deaf text = e.store.announcements (e.store.changes dump.snapshots) :=
  dispatched_of_commit he h (commit_of_quiet refuses_inner quiet_deaf _ e.begin rfl)

end Engine

namespace Workbench

variable {g : Grammar} {w : Workbench} {text : String} {observer : ObserverId} {e : Engine Unit}

/-- The workbench stores what an engine without observers does, and all of it can be told. -/
structure Mirrors (w : Workbench) (observer : ObserverId) (e : Engine Unit) : Prop where
  heard : w.Heard observer
  legible : w.store.Legible
  store : w.store = e.store
  idle : e.parsing = false

theorem Mirrors.remember (h : w.Mirrors observer e) (memory : Journal) :
    Mirrors { w with memory } observer e :=
  ⟨⟨h.heard.registry, h.heard.idle⟩, h.legible, h.store, h.idle⟩

/-- Both take what a text shows. -/
theorem Mirrors.absorb (h : w.Mirrors observer e) {dump : Dump} (hdump : dumpOf g text = .ok dump)
    (hnew : ∀ new ∈ dump.snapshots, new.Legible) (memory : Journal) :
    Mirrors { w with store := w.store.absorb dump.snapshots, memory } observer
      (e.parse g Engine.deaf text).1 := by
  refine ⟨⟨h.heard.registry, h.heard.idle⟩, h.legible.absorb (wellFormed_of_dumpOf hdump) hnew, ?_,
    Engine.parsing_parse h.idle⟩
  rw [Engine.store_parse_deaf h.idle hdump, h.store]

end Workbench

/-! ## What a load tells -/

namespace Shell

variable {g : Grammar} {w : Workbench} {text : String}

/-- The lines for some announcements. -/
def toldLines (told : List Announcement) : List String :=
  if told = [] then ["no changes"] else told.map (·.line)

theorem listEvents_changes {s : Store} {dump : List FileSnapshot} (hs : s.Legible)
    (hdump : WellFormed dump) (hnew : ∀ new ∈ dump, new.Legible) :
    listEvents (s.absorb dump) ((s.changes dump).map Change.event) =
      .printing ((s.announcements (s.changes dump)).map (·.line)) := by
  have hdifference := Store.announcements_changes hdump.nodup hdump.tight s
  have hannounced := Store.announcements_changes_eq_map hdump.nodup s
  have hline : ∀ event ∈ (s.changes dump).map Change.event,
      eventLine (s.absorb dump) event =
        .ok (Announcement.line ⟨event.kind, event.notice (s.absorb dump)⟩) := by
    intro event hevent
    obtain ⟨change, hchange, rfl⟩ := List.mem_map.1 hevent
    -- The announcement that the event was is part of the difference, so it can be described.
    have htold : (s.absorb dump).announce change ∈
        s.difference (s.absorb dump) (dump.map (·.filename)) := by
      rw [← hdifference, hannounced]
      exact List.mem_map_of_mem hchange
    have hdescribe : (change.event.notice (s.absorb dump)).describe =
        .ok (change.event.notice (s.absorb dump)).text :=
      Notice.describe_of_isTellable ((hs.absorb hdump hnew).isTellable_of_mem_difference htold)
    rw [eventLine, hdescribe]
    rfl
  rw [listEvents_eq_printing hline, hannounced, List.map_map, List.map_map]
  rfl

/-- A load of a text that cannot be read tells why, and changes nothing that is stored. -/
theorem loadText_of_error (hw : w.Heard Journal.recording) {fault : Fault}
    (h : dumpOf g text = .error fault) (hreported : fault.isReported) :
    ∃ memory, loadText g w text =
      ({ w with memory }, .printing ["Command 'load' failed: " ++ fault.message]) := by
  have hdrained : w.drain.2.Heard Journal.recording := ⟨hw.registry, hw.idle⟩
  obtain ⟨memory, -, hload⟩ := Workbench.load_of_error hdrained h
  unfold loadText
  rw [hload]
  simp only [hreported, if_true, failing]
  exact ⟨_, rfl⟩

/-- A load that succeeds tells what it changes, and nothing of what was recorded before it. -/
theorem loadText_of_dump (hw : w.Heard Journal.recording) (hstore : w.store.Legible) {dump : Dump}
    (h : dumpOf g text = .ok dump) (hfault : dump.fault = none)
    (hnew : ∀ new ∈ dump.snapshots, new.Legible) :
    ∃ memory, loadText g w text =
      ({ w with store := w.store.absorb dump.snapshots, memory },
        .printing (toldLines (w.store.announcements (w.store.changes dump.snapshots)))) := by
  have hdrained : w.drain.2.Heard Journal.recording := ⟨hw.registry, hw.idle⟩
  obtain ⟨memory, hevents, hload⟩ := Workbench.load_of_dump hdrained h hfault
  have hrecorded : memory.recorder.events = (w.store.changes dump.snapshots).map Change.event := by
    rw [hevents]
    rfl
  have hlist := listEvents_changes hstore (wellFormed_of_dumpOf h) hnew
  have hnone : (w.store.changes dump.snapshots).map Change.event = [] ↔
      w.store.announcements (w.store.changes dump.snapshots) = [] := by
    rw [← List.length_eq_zero_iff, ← List.length_eq_zero_iff, List.length_map,
      Store.length_announcements]
  refine ⟨{ memory with recorder := {} }, ?_⟩
  unfold loadText
  rw [hload]
  simp only [Workbench.drain, Recorder.drain, hrecorded, hnone, toldLines]
  split
  · rfl
  · exact congrArg (Prod.mk _) hlist

end Shell

end BytecodeCoverage
