import SigmaDesk.Proofs.Session.Run

/-!
# Submitting from the text editor

To submit from the text editor is to leave it and to submit then, but for one word: what the
submission is called in its notification is settled by the rule as it is before the text is read.
-/

namespace SigmaDesk.Session

variable {c : Catalog} {s t : Session} {p : Submission} {store : Store.Request → Reply}

def Submission.tell (p : Submission) (message : String) : Submission :=
  { p with
    notice := some message
    session := { p.session with notifications := p.session.notifications ++ [message] } }

/-- What comes of a submission under any name: it is saved and the name goes unused, or it failed
and the name stands in its notification, and nowhere else. -/
inductive Named : (String → Submission) → Prop
  | saved {p : Submission} (hv : p.verdict = .ok true) : Named fun _ => p
  | told {p : Submission} (reason : String) (hv : p.verdict ≠ .ok true) :
    Named fun name => p.tell (failed name reason)

theorem failed_inj {name name' reason : String} :
    failed name reason = failed name' reason ↔ name = name' := by
  simp [failed]

theorem tell_inj {message message' : String} :
    p.tell message = p.tell message' ↔ message = message' := by
  constructor
  · intro h
    exact Option.some.inj (congrArg Submission.notice h)
  · intro h
    rw [h]

theorem Named.eq_iff {f : String → Submission} (h : Named f) (name name' : String) :
    f name = f name' ↔ (f name).verdict = .ok true ∨ name = name' := by
  cases h with
  | saved hv => exact iff_of_true rfl (.inl hv)
  | told reason hv =>
    rw [tell_inj, failed_inj]
    exact ⟨.inr, fun h => h.resolve_left hv⟩

theorem Named.told_of_ne {f : String → Submission} (h : Named f) {name name' : String}
    (hne : f name ≠ f name') :
    ∃ (p : Submission) (reason : String), ∀ name, f name = p.tell (failed name reason) := by
  cases h with
  | saved hv => exact absurd rfl hne
  | told reason hv => exact ⟨_, reason, fun _ => rfl⟩

theorem Named.asked {f : String → Submission} (h : Named f) (requests : List Store.Request)
    (calls : Calls) : Named fun name => { f name with requests, calls } := by
  cases h with
  | saved hv => exact .saved hv
  | @told p reason hv => exact .told (p := { p with requests, calls }) reason hv

theorem named_failure (s : Session) {verdict : Except SubmitError Bool} (hv : verdict ≠ .ok true)
    (state : State) (reason : String) :
    Named fun name => failure s verdict state (failed name reason) :=
  .told (p := { verdict, session := { s with state } }) reason hv

theorem named_settle (s : Session) (outcome : Store.Outcome) :
    Named fun name => settle name s outcome := by
  cases outcome with
  | refused reason => exact named_failure s (by simp) .submitFailed reason
  | broken reason => exact named_failure s (by simp) .submitFailed reason
  | stored id =>
    cases h : s.record.assignId id with
    | ok r =>
      simp only [settle, h]
      exact .saved rfl
    | error e =>
      simp only [settle, h]
      exact named_failure s (by simp) .submitFailed e.message

theorem named_handOver (c : Catalog) (store : Store.Request → Reply) (s : Session) :
    Named fun name => s.handOver c store name := by
  cases h : s.record.document with
  | error e =>
    simp only [handOver, h]
    exact named_failure _ (by simp) .submitFailed e.message
  | ok d =>
    simp only [handOver, h]
    exact (named_settle _ _).asked _ _

def deliver (c : Catalog) (store : Store.Request → Reply) (s : Session) (name : String) :
    Submission :=
  if (s.report c).submittable then s.handOver c store name
  else
    let message :=
      failed name (toString (s.report c).failures.length ++ " field(s) need attention")
    { verdict := .ok false
      session := { s with fieldErrors := (s.report c).byField }.notify message .invalid
      notice := message }

theorem named_deliver (c : Catalog) (store : Store.Request → Reply) (s : Session) :
    Named (deliver c store s) := by
  unfold deliver
  split
  · exact named_handOver c store s
  · exact named_failure _ (by simp) .invalid _

theorem submit_of_left (h : s.state ≠ .submitting) (hleave : s.leaveText c = (.ok (), t)) :
    s.submit c store = deliver c store t (action s.record) := by
  simp only [Session.submit, if_neg h, hleave, deliver]

/-- The text editor is left for good, under the identifier that the rule has already or else the one
that the text brings, which is not empty. -/
theorem left_of_switchToStructured {answer : Answer}
    (h : s.switchToStructured c = (.ok answer, t)) :
    s.state ≠ .submitting ∧ s.leaveText c = (.ok (), t) ∧ t.mode = .structured ∧
      ∃ brought, brought ≠ some "" ∧ t.record.id = s.record.id.or brought := by
  unfold Session.switchToStructured at h
  split at h
  · cases h
  · rename_i hidle
    split at h
    · cases h
    · rename_i u hleave
      cases h
      refine ⟨hidle, hleave, ?_⟩
      cases hmode : s.mode with
      | structured =>
        simp only [leaveText, hmode] at hleave
        cases hleave
        exact ⟨hmode, none, by simp, (Option.or_none).symm⟩
      | text content old =>
        cases hread : s.readText content with
        | error e =>
          simp only [leaveText, hmode, hread] at hleave
          cases hleave
        | ok r =>
          rw [leaveText_of_read hmode hread] at hleave
          cases hleave
          obtain ⟨q, hparse, rfl⟩ := readText_ok hread
          exact ⟨rfl, q.id, (RuleText.readable_of_parse hparse).id, rfl⟩

/-- A submission keeps its name when the text is left, unless the text brings the first identifier.
Then a creation becomes an update. -/
theorem action_cases {brought : Option String} {r r' : Record} (hne : brought ≠ some "")
    (hid : r'.id = r.id.or brought) :
    ((r.id = none → r'.id = none) ∧ action r = action r') ∨
      (¬(r.id = none → r'.id = none) ∧ action r = "create" ∧ action r' = "update") := by
  cases h : r.id with
  | some id =>
    have hsame : r'.id = r.id := by rw [hid, h, Option.some_or]
    exact .inl ⟨by simp, by rw [action, action, Record.storedId?, Record.storedId?, hsame]⟩
  | none =>
    rw [h, Option.none_or] at hid
    cases brought with
    | none => exact .inl ⟨fun _ => hid, by simp [action, Record.storedId?, h, hid]⟩
    | some id =>
      have hid' : id ≠ "" := fun he => hne (congrArg some he)
      refine .inr ⟨fun hnone => ?_, ?_, ?_⟩
      · exact absurd (hid.symm.trans (hnone rfl)) (by simp)
      · simp [action, Record.storedId?, h]
      · simp [action, Record.storedId?, hid, identifier?, hid']

/-- Submitting from the text editor is leaving it and then submitting, unless the submission fails
and the text brings the first identifier. Then the two differ in their notification only, which
calls the update a creation. -/
theorem submit_eq_submit_left_iff {answer : Answer} (h : s.switchToStructured c = (.ok answer, t))
    (store : Store.Request → Reply) :
    (s.submit c store = t.submit c store ↔
      (s.submit c store).verdict = .ok true ∨ (s.record.id = none → t.record.id = none)) ∧
    (s.submit c store ≠ t.submit c store → ∃ (p : Submission) (reason : String),
      s.submit c store = p.tell (failed "create" reason) ∧
        t.submit c store = p.tell (failed "update" reason)) := by
  obtain ⟨hidle, hleave, hmode, brought, hne, hid⟩ := left_of_switchToStructured h
  have hidle' : t.state ≠ .submitting := by
    have hstepped := stepped_leaveText c s
    rw [hleave] at hstepped
    exact hstepped.idle hidle
  have hstay : t.leaveText c = (.ok (), t) := by rw [leaveText, hmode]
  -- Both deliver the rule of `t`; only the name of the submission comes from another rule.
  rw [submit_of_left hidle hleave, submit_of_left hidle' hstay]
  have hnamed := named_deliver c store t
  rcases action_cases hne hid with ⟨hkept, hname⟩ | ⟨hbrought, hcreate, hupdate⟩
  · rw [hname]
    exact ⟨iff_of_true rfl (.inr hkept), fun hdiffer => absurd rfl hdiffer⟩
  · rw [hcreate, hupdate]
    refine ⟨?_, fun hdiffer => ?_⟩
    · rw [hnamed.eq_iff, or_iff_left hbrought, or_iff_left (by decide)]
    · obtain ⟨p, reason, htold⟩ := hnamed.told_of_ne hdiffer
      exact ⟨p, reason, htold "create", htold "update"⟩

def owned : Record := { RuleText.tagged [] with id := some "7" }

def adopting : Session :=
  { record := RuleText.tagged [], state := .editing, mode := .text (RuleText.preview owned) none }

def adopted : Session := { record := owned, state := .valid }

def down : Store.Request → Reply := fun _ => { outcome := .refused "index down" }

theorem leaveText_adopting : adopting.leaveText .standard = (.ok (), adopted) := by
  have hdraft : owned.Draft := by decide +kernel
  have hread : adopting.readText (RuleText.preview owned) = .ok owned := by
    rw [readText, RuleText.parse_preview hdraft]
    rfl
  have hgate : (Gate.evaluate .standard owned).submittable = true := by decide +kernel
  rw [leaveText_of_read rfl hread]
  simp only [changed, report, hgate, if_true]
  rfl

theorem switchToStructured_adopting :
    adopting.switchToStructured .standard = (.ok (.record owned), adopted) := by
  simp only [Session.switchToStructured, leaveText_adopting]
  rfl

theorem submit_adopting (store : Store.Request → Reply) :
    adopting.submit .standard store = deliver .standard store adopted "create" :=
  submit_of_left nofun leaveText_adopting

theorem submit_eq_submit_left_adopting :
    adopting.switchToStructured .standard = (.ok (.record owned), adopted) ∧
    (adopting.submit .standard fun _ => { outcome := .stored "7" }) =
      (adopted.submit .standard fun _ => { outcome := .stored "7" }) ∧
    ∃ (p : Submission) (reason : String),
      adopting.submit .standard down = p.tell (failed "create" reason) ∧
        adopted.submit .standard down = p.tell (failed "update" reason) := by
  have hsaved : (adopting.submit .standard fun _ => { outcome := .stored "7" }).verdict =
      .ok true := by
    rw [submit_adopting]
    decide +kernel
  have hfailed : (adopting.submit .standard down).verdict ≠ .ok true := by
    rw [submit_adopting]
    decide +kernel
  have hbrought : ¬(adopting.record.id = none → adopted.record.id = none) := by decide
  have hdown := submit_eq_submit_left_iff switchToStructured_adopting down
  refine ⟨switchToStructured_adopting, ?_, hdown.2 fun heq => ?_⟩
  · exact (submit_eq_submit_left_iff switchToStructured_adopting _).1.mpr (.inl hsaved)
  · exact (hdown.1.mp heq).elim hfailed hbrought

/-- The text of this session can be left. To submit it directly is reported as a creation, though
the store is asked to update. -/
theorem submit_ne_submit_left :
    adopting.state ≠ .submitting ∧ adopting.mode ≠ .structured ∧
    (∃ answer, adopting.switchToStructured .standard = (.ok answer, adopted)) ∧
    (adopting.submit .standard down).requests.map (·.target "") = ["7"] ∧
    (adopting.submit .standard down).notice = some "Failed to create rule: index down" ∧
    (adopted.submit .standard down).notice = some "Failed to update rule: index down" ∧
    adopting.submit .standard down ≠ adopted.submit .standard down := by
  have hdirect : (adopting.submit .standard down).notice =
      some "Failed to create rule: index down" := by
    rw [submit_adopting]
    decide +kernel
  have hafter : (adopted.submit .standard down).notice =
      some "Failed to update rule: index down" := by
    decide +kernel
  have hrequest : (adopting.submit .standard down).requests.map (·.target "") = ["7"] := by
    rw [submit_adopting]
    decide +kernel
  refine ⟨nofun, nofun, ⟨_, switchToStructured_adopting⟩, hrequest, hdirect, hafter, fun heq => ?_⟩
  have hnotice := hdirect.symm.trans ((congrArg Submission.notice heq).trans hafter)
  revert hnotice
  decide

end SigmaDesk.Session
