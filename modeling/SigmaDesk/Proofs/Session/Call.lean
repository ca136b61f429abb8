import SigmaDesk.Proofs.Gate
import SigmaDesk.Session.Submission

/-!
# What a call does

A call other than to submit never leaves a notification. While a session waits for a store with a
rule that the gate let pass, only a blur does anything: it finds nothing wrong and drops what was
shown at its field.
-/

namespace SigmaDesk.Session

variable {c : Catalog} {s t u : Session} {o : Op}

/-- What a call other than to submit can make of a session. Only an edit changes the record, and
only leaving the text replaces it. -/
inductive Stepped (c : Catalog) (s : Session) : Op → Session → Prop
  | same {o : Op} : Stepped c s o s
  | opened {o : Op} (m : Mode) : Stepped c s o { s with mode := m }
  | edited {e : Edit} {r : Record} (h : e.apply s.record = .ok r) :
    Stepped c s (.edit e) (changed c { s with record := r })
  | read {content : String} {r : Record} (h : s.readText content = .ok r) :
    Stepped c s .switchToStructured (changed c { s with record := r, mode := .structured })
  | cleared (field : String) :
    Stepped c s (.blur field) { s with fieldErrors := s.fieldErrors.erase field }
  | noted (field : String) (messages : List String) (h : s.state = .submitting ∨ s.state = .empty) :
    Stepped c s (.blur field) { s with fieldErrors := s.fieldErrors.insert field messages }
  | flagged (field : String) (messages : List String)
    (h : ¬(s.state = .submitting ∨ s.state = .empty)) :
    Stepped c s (.blur field)
      { s with fieldErrors := s.fieldErrors.insert field messages, state := .invalid }

theorem stepped_edit (c : Catalog) (s : Session) (e : Edit) :
    Stepped c s (.edit e) (s.edit c e).2 := by
  unfold Session.edit
  split
  · exact .same
  · split
    · exact .same
    · split
      · exact .same
      · rename_i h
        exact .edited h

theorem stepped_switchToText (c : Catalog) (s : Session) :
    Stepped c s .switchToText s.switchToText.2 := by
  unfold Session.switchToText
  split
  · exact .same
  · split
    · exact .same
    · exact .opened _

theorem stepped_setText (c : Catalog) (s : Session) (content : String) :
    Stepped c s (.setText content) (s.setText content).2 := by
  unfold Session.setText
  split
  · exact .same
  · split
    · exact .opened _
    · exact .same

theorem stepped_leaveText (c : Catalog) (s : Session) :
    Stepped c s .switchToStructured (s.leaveText c).2 := by
  unfold Session.leaveText
  split
  · exact .same
  · split
    · exact .opened _
    · rename_i h
      exact .read h

theorem switchToStructured_session (c : Catalog) (s : Session) :
    (s.switchToStructured c).2 = if s.state = .submitting then s else (s.leaveText c).2 := by
  unfold Session.switchToStructured
  split
  · rfl
  · split <;> simp_all

theorem stepped_blur (c : Catalog) (s : Session) (field : String) :
    Stepped c s (.blur field) (s.blur c field).2 := by
  unfold Session.blur
  simp only
  split
  · exact .cleared field
  · by_cases h : s.state = .submitting ∨ s.state = .empty
    · rw [if_pos h]
      exact .noted field _ h
    · rw [if_neg h]
      exact .flagged field _ h

theorem stepped_step (c : Catalog) (s : Session) (o : Op) : Stepped c s o (s.step c o).2 := by
  cases o with
  | edit e => exact stepped_edit c s e
  | switchToText => exact stepped_switchToText c s
  | setText content => exact stepped_setText c s content
  | switchToStructured =>
    rw [step, switchToStructured_session]
    split
    · exact .same
    · exact stepped_leaveText c s
  | blur field => exact stepped_blur c s field
  | preview => exact .same
  | report => exact .same

theorem Stepped.notifications (h : Stepped c s o t) : t.notifications = s.notifications := by
  cases h <;> rfl

theorem state_changed (c : Catalog) (s : Session) :
    (s.changed c).state = .valid ∨ (s.changed c).state = .editing := by
  unfold changed
  split
  · exact .inl rfl
  · exact .inr rfl

/-- A session does not come to wait for a store by a call other than to submit. -/
theorem Stepped.idle (h : Stepped c s o t) (hs : s.state ≠ .submitting) :
    t.state ≠ .submitting := by
  cases h with
  | edited => rcases state_changed c _ with h | h <;> rw [h] <;> nofun
  | read => rcases state_changed c _ with h | h <;> rw [h] <;> nofun
  | flagged => nofun
  | _ => exact hs

/-- Two sessions that differ at most in what they show at the fields. -/
structure SameRule (s t : Session) : Prop where
  record : t.record = s.record
  state : t.state = s.state
  mode : t.mode = s.mode
  notifications : t.notifications = s.notifications

theorem SameRule.refl (s : Session) : SameRule s s := ⟨rfl, rfl, rfl, rfl⟩

theorem SameRule.trans (h : SameRule s t) (k : SameRule t u) : SameRule s u :=
  ⟨k.record.trans h.record, k.state.trans h.state, k.mode.trans h.mode,
    k.notifications.trans h.notifications⟩

theorem submit_locked (h : s.state = .submitting) (store : Store.Request → Reply) :
    s.submit c store = { verdict := .error .locked, session := s } := by
  rw [Session.submit, if_pos h]

/-- How a session that waits for a store with an accepted rule meets a call. What would change the
rule or the editor is refused before anything else is looked at. -/
inductive Met (c : Catalog) (s : Session) : Call → Except OpError Answer → Session → Prop
  | edit (e : Edit) : Met c s (.op (.edit e)) (.error .locked) s
  | switchToText : Met c s (.op .switchToText) (.error .locked) s
  | setText (content : String) : Met c s (.op (.setText content)) (.error .locked) s
  | switchToStructured : Met c s (.op .switchToStructured) (.error .locked) s
  | submit (h : ∀ store, s.submit c store = { verdict := .error .locked, session := s }) :
    Met c s .submit (.error .locked) s
  | preview : Met c s (.op .preview) (.ok (.text s.preview)) s
  | report : Met c s (.op .report) (.ok (.report (s.report c))) s
  | blur (field : String) : Met c s (.op (.blur field)) (.ok (.messages []))
    { s with fieldErrors := s.fieldErrors.erase field }

inductive MetAll (c : Catalog) : Session → List Call → Calls → Session → Prop
  | nil {s : Session} : MetAll c s [] [] s
  | cons {s t u : Session} {call : Call} {calls : List Call} {answer : Except OpError Answer}
    {answers : Calls} (head : Met c s call answer t) (tail : MetAll c t calls answers u) :
    MetAll c s (call :: calls) ((answer, t) :: answers) u

theorem Met.sameRule {call : Call} {answer : Except OpError Answer} (h : Met c s call answer t) :
    SameRule s t := by
  cases h <;> exact ⟨rfl, rfl, rfl, rfl⟩

theorem MetAll.sameRule {calls : List Call} {answers : Calls} (h : MetAll c s calls answers t) :
    SameRule s t := by
  induction h with
  | nil => exact .refl _
  | cons head _ ih => exact head.sameRule.trans ih

theorem met_step (hs : s.state = .submitting) (hr : (s.report c).submittable = true) (o : Op) :
    Met c s (.op o) (s.step c o).1 (s.step c o).2 := by
  cases o with
  | edit e =>
    rw [step, Session.edit, if_pos hs]
    exact .edit e
  | switchToText =>
    rw [step, Session.switchToText, if_pos hs]
    exact .switchToText
  | setText content =>
    rw [step, Session.setText, if_pos hs]
    exact .setText content
  | switchToStructured =>
    rw [step, Session.switchToStructured, if_pos hs]
    exact .switchToStructured
  | blur field =>
    have hnone : Gate.checkField c s.record field = [] := Gate.checkField_of_submittable hr field
    rw [step, Session.blur, hnone]
    exact .blur field
  | preview => exact .preview
  | report => exact .report

theorem metAll_answerCalls (hs : s.state = .submitting) (hr : (s.report c).submittable = true)
    (calls : List Call) :
    MetAll c s calls (s.answerCalls c calls).1 (s.answerCalls c calls).2 := by
  induction calls generalizing s with
  | nil => exact .nil
  | cons call calls ih =>
    cases call with
    | op o =>
      have hmet := met_step hs hr o
      have hreport : ((s.step c o).2.report c).submittable = true := by
        rwa [report, hmet.sameRule.record]
      exact .cons hmet (ih (hmet.sameRule.state.trans hs) hreport)
    | submit => exact .cons (.submit (submit_locked hs)) (ih hs hr)

end SigmaDesk.Session
