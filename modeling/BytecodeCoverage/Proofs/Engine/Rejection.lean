-- SUMMARY: A text with a record that fails is rejected as a whole, and leaves no trace of itself.
import BytecodeCoverage.Proofs.Engine.History
import BytecodeCoverage.Proofs.Session.Texts

/-!
# Rejected texts

All records of a text are read and searched before anything is stored. So one record that fails
takes the whole text with it, however many records come before it and whatever they show: nothing
is stored, nobody is notified, and the engine goes on as if the text had never been there.
-/

namespace BytecodeCoverage

namespace Engine

variable {σ : Type} {g : Grammar} {text : String} {e : Engine σ}

/-! ## One text -/

theorem scriptsOf_of_bad_record {before after : List (List String)} {record : List String}
    {s : Session} {fault : Fault} (hrecords : recordsOf g text = before ++ record :: after)
    (hbefore : Session.addRecords g {} before = .ok s)
    (hrecord : s.addRecord g record = .error fault) : scriptsOf g text = .error fault := by
  rw [scriptsOf_eq, hrecords, Session.addRecords_of_error hbefore hrecord]
  rfl

theorem dumpOf_of_error {fault : Fault} (h : scriptsOf g text = .error fault) :
    dumpOf g text = .error fault := by
  rw [dumpOf, h]
  rfl

theorem parse_of_unread (he : e.parsing = false) {fault : Fault}
    (h : scriptsOf g text = .error fault) (behaviour : Behaviour σ) :
    e.parse g behaviour text = (e, .error fault) ∧ e.dispatched g behaviour text = [] := by
  have hdump := dumpOf_of_error h
  exact ⟨parse_of_error he hdump, dispatched_of_error he hdump behaviour⟩

/-! ## Many texts -/

/-- The call is not one for a text that cannot be read. -/
def Call.isRead (g : Grammar) : Call σ → Bool
  | .parse _ text => (scriptsOf g text).isOk
  | .addObserver _ => true
  | .removeObserver _ => true

/-- Texts that cannot be read may be left out of any run. By induction on the calls. -/
theorem performAll_filter_isRead (he : e.parsing = false) (calls : List (Call σ)) :
    performAll g e (calls.filter (·.isRead g)) = performAll g e calls := by
  induction calls generalizing e with
  | nil => rfl
  | cons call rest ih =>
    by_cases hread : call.isRead g
    · rw [List.filter_cons_of_pos hread]
      exact ih (parsing_perform he call)
    · have hsame : e.perform g call = e := by
        cases call with
        | parse behaviour text =>
          cases hscripts : scriptsOf g text with
          | ok scripts =>
            have hok : Call.isRead g (.parse behaviour text) = true := by
              rw [Call.isRead, hscripts]
              rfl
            exact absurd hok hread
          | error fault => exact congrArg Prod.fst (parse_of_unread he hscripts behaviour).1
        | addObserver observer => exact absurd rfl hread
        | removeObserver observer => exact absurd rfl hread
      rw [List.filter_cons_of_neg hread, ih he]
      exact congrArg (performAll g · rest) hsame.symm

/-- A text of which a record fails, after any records that do not. The parse fails for something
in that record, it changes nothing, and it notifies nobody. Whatever is called before it and
afterwards, the next call does what it would do if the text had never been parsed. -/
theorem parse_of_bad_record (he : e.parsing = false) (behaviour : Behaviour σ)
    {before after : List (List String)} {record : List String} {s : Session} {fault : Fault}
    (hrecords : recordsOf g text = before ++ record :: after)
    (hbefore : Session.addRecords g {} before = .ok s)
    (hrecord : s.addRecord g record = .error fault) :
    fault.IsOfText ∧ e.parse g behaviour text = (e, .error fault) ∧
      e.dispatched g behaviour text = [] ∧
      ∀ earlier calls behaviour' text',
        let later := performAll g e (earlier ++ .parse behaviour text :: calls)
        let undisturbed := performAll g e (earlier ++ calls)
        later.parse g behaviour' text' = undisturbed.parse g behaviour' text' ∧
          later.dispatched g behaviour' text' = undisturbed.dispatched g behaviour' text' := by
  have hscripts := scriptsOf_of_bad_record hrecords hbefore hrecord
  obtain ⟨hparse, hdispatched⟩ := parse_of_unread he hscripts behaviour
  refine ⟨ofText_scriptsOf g text fault hscripts, hparse, hdispatched, ?_⟩
  intro earlier calls behaviour' text' later undisturbed
  have hunread : ¬ Call.isRead g (.parse behaviour text) = true := by
    rw [Call.isRead, hscripts]
    exact Bool.false_ne_true
  -- The runs have the same calls for texts that can be read.
  have hlater : later = undisturbed :=
    calc later
        = performAll g e ((earlier ++ .parse behaviour text :: calls).filter (·.isRead g)) :=
          (performAll_filter_isRead he _).symm
      _ = performAll g e ((earlier ++ calls).filter (·.isRead g)) := by
          rw [List.filter_append, List.filter_cons_of_neg hunread, ← List.filter_append]
      _ = undisturbed := performAll_filter_isRead he _
  rw [hlater]
  exact ⟨rfl, rfl⟩

/-- The records of a known file, of a new one and of a script with a jump to nowhere. -/
def misdirected : List (List String) :=
  [["--- SCRIPT a.js:1 ---", "0:7/0/0 x 1 stop", "--- END SCRIPT"],
   ["--- SCRIPT b.js:1 ---", "0:1/0/0 x 1 stop", "--- END SCRIPT"],
   ["--- SCRIPT c.js:1 ---", "0:1/0/0 x 1 goto 9", "--- END SCRIPT"]]

theorem parse_of_misdirected :
    let text := Text.joinWith "\n" misdirected.flatten
    recordsOf {} text = misdirected ∧
      acquainted.parse {} (hearing 0) text =
        (acquainted, .error (.unresolvedTarget "c.js:1" 0 9)) ∧
      acquainted.dispatched {} (hearing 0) text = [] := by
  intro text
  have hrecords : recordsOf {} text = misdirected := by decide +kernel
  have hbefore : Session.addRecords {} {} (misdirected.take 2) =
      .ok (Session.attemptAll {} {} (misdirected.take 2)) := by decide +kernel
  have hrecord : (Session.attemptAll {} {} (misdirected.take 2)).addRecord {} misdirected[2] =
      .error (.unresolvedTarget "c.js:1" 0 9) := by decide +kernel
  obtain ⟨-, hparse, hdispatched, -⟩ := parse_of_bad_record (e := acquainted) rfl (hearing 0)
    hrecords hbefore hrecord
  exact ⟨hrecords, hparse, hdispatched⟩

end Engine

end BytecodeCoverage
