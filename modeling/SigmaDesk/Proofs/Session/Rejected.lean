import SigmaDesk.Proofs.Gate.Messages
import SigmaDesk.Proofs.Session.Run

/-!
# Rejected submissions

A submission that the gate refuses replaces whatever was shown at the fields by the messages of the
report, each at its own field and once. A blur finds the same messages there, so it changes nothing.
-/

namespace SigmaDesk.Session

variable {c : Catalog} {s : Session} {r : Record} {p : Submission} {store : Store.Request → Reply}

/-- A session that shows every failure of its rule, at the field that it is filed under and once. -/
structure ShowsAll (c : Catalog) (s : Session) : Prop where
  messages : ∀ field, s.fieldErrors.get? field =
    if Gate.checkField c s.record field = [] then none
    else some (Gate.checkField c s.record field)
  order : FirstOccurrences ((s.report c).failures.map (·.field)) (fun _ => True) s.fieldErrors.keys
  count : s.fieldErrors.values.flatten.length = (s.report c).failures.length
  blur : ∀ field, s.step c (.blur field) =
    (.ok (.messages ((s.fieldErrors.get? field).getD [])), s)

theorem blur_of_shown (hstate : s.state = .invalid) {field : String}
    (hget : s.fieldErrors.get? field = if Gate.checkField c s.record field = [] then none
      else some (Gate.checkField c s.record field)) :
    s.step c (.blur field) = (.ok (.messages ((s.fieldErrors.get? field).getD [])), s) := by
  rw [step, Session.blur, hget]
  by_cases hnone : Gate.checkField c s.record field = []
  · rw [if_pos hnone] at hget
    simp [hnone, Table.erase_of_get? hget]
  · rw [if_neg hnone] at hget
    have hkept : (if s.state = .submitting ∨ s.state = .empty then s.state else .invalid) =
        s.state := by simp [hstate]
    simp [hnone, Table.insert_of_get? hget, hkept]

theorem showsAll_of_byField (hstate : s.state = .invalid)
    (herrors : s.fieldErrors = (s.report c).byField) : ShowsAll c s := by
  have hmessages : ∀ field, s.fieldErrors.get? field =
      if Gate.checkField c s.record field = [] then none
      else some (Gate.checkField c s.record field) := by
    intro field
    rw [herrors]
    exact Report.get?_byField _ field
  refine ⟨hmessages, ?_, ?_, fun field => blur_of_shown hstate (hmessages field)⟩
  · rw [herrors]
    exact Report.firstOccurrences_keys_byField _
  · rw [herrors]
    exact Report.length_messages_byField _

structure Rejected (s : Session) (r : Record) (message : String) (p : Submission) : Prop where
  verdict : p.verdict = .ok false
  requests : p.requests = []
  notice : p.notice = some message
  notifications : p.session.notifications = s.notifications ++ [message]
  record : p.session.record = r
  state : p.session.state = .invalid

/-- Whatever was shown before, a rejected submission leaves every failure of the rule shown, and
tells how many there are. -/
theorem rejected_showsAll (hidle : s.state ≠ .submitting) (hrecord : s.toSubmit = .ok r)
    (hgate : (Gate.evaluate c r).submittable = false) (store : Store.Request → Reply) :
    Rejected s r ("Failed to " ++ action s.record ++ " rule: " ++
        toString (Gate.evaluate c r).failures.length ++ " field(s) need attention")
      (s.submit c store) ∧
    ShowsAll c (s.submit c store).session := by
  obtain ⟨t, hleave, rfl, -, hnotes, -⟩ := leaveText_ok (c := c) hrecord
  have hrefused : (t.report c).submittable = false := hgate
  have hmessage (n : Nat) : "Failed to " ++ action s.record ++ " rule: " ++ toString n ++
      " field(s) need attention" =
      failed (action s.record) (toString n ++ " field(s) need attention") := String.append_assoc
  simp only [submit, if_neg hidle, hleave, hrefused, Bool.false_eq_true, if_false, hmessage]
  exact ⟨⟨rfl, rfl, rfl, congrArg (· ++ [_]) hnotes, rfl, rfl⟩, showsAll_of_byField rfl rfl⟩

def stale : Session :=
  (start none).run .standard [.op (.blur "author"), .op (.edit (.setText .author "soc"))]

theorem rejected_showsAll_stale :
    stale.fieldErrors.get? "author" = some ["Author name is required"] ∧
      Rejected stale stale.record "Failed to create rule: 6 field(s) need attention"
        (stale.submit .standard fun _ => { outcome := .stored "7" }) ∧
      ShowsAll .standard (stale.submit .standard fun _ => { outcome := .stored "7" }).session := by
  have hgate : (Gate.evaluate .standard stale.record).submittable = false := by decide +kernel
  exact ⟨by decide +kernel, rejected_showsAll (by decide +kernel) rfl hgate _⟩

end SigmaDesk.Session
