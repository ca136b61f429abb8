import SigmaDesk.Proofs.Document
import SigmaDesk.Proofs.RuleText.Accepted
import SigmaDesk.Proofs.Session.Call

/-!
# What comes of a submission

A submission takes one of three paths: the text cannot be read, the gate refuses the rule, or a
store is asked, once. The store has a say on the last path only.
-/

namespace SigmaDesk.Session

variable {c : Catalog} {s t u : Session} {r : Record} {d : Document} {q : Store.Request}
  {store : Store.Request → Reply} {p : Submission}

/-- The record that a submission is about: that of the form, or the one that the text stands for. -/
def toSubmit (s : Session) : Except RuleText.ParseError Record :=
  match s.mode with
  | .structured => .ok s.record
  | .text content _ => s.readText content

theorem carryId_ok {assigned : Option String} {content : String} {q : Record}
    (h : carryId assigned content q = .ok r) : r = { q with id := assigned.or q.id } := by
  unfold carryId at h
  split at h
  · cases h
    rfl
  · cases h
    rfl
  · rename_i b hid
    split at h
    · rename_i hsame
      cases h
      rw [Option.some_or, ← hsame, ← hid]
    · cases h

theorem readText_ok {content : String} (h : s.readText content = .ok r) :
    ∃ q, RuleText.parse content = .ok q ∧ r = { q with id := s.record.id.or q.id } := by
  obtain ⟨q, hparse, hcarry⟩ := RuleText.bind_ok.mp h
  exact ⟨q, hparse, carryId_ok hcarry⟩

theorem leaveText_of_read {content : String} {old : Option RuleText.ParseError}
    (hm : s.mode = .text content old) (h : s.readText content = .ok r) :
    s.leaveText c = (.ok (), changed c { s with record := r, mode := .structured }) := by
  simp only [leaveText, hm, h]

theorem switchToText_structured (h : s.state ≠ .submitting) (hm : s.mode = .structured) :
    s.step c .switchToText = (.ok (.text (RuleText.preview s.record)),
      { s with mode := .text (RuleText.preview s.record) none }) := by
  rw [step, switchToText, if_neg h, hm]

theorem readText_congr (h : s.record = t.record) (content : String) :
    s.readText content = t.readText content := by
  rw [readText, readText, h]

theorem switchToStructured_text {content : String} {error : Option RuleText.ParseError}
    (h : s.state ≠ .submitting) (hm : s.mode = .text content error) :
    s.step c .switchToStructured = match s.readText content with
      | .error e => (.error (.parse e), { s with mode := .text content (some e) })
      | .ok r => (.ok (.record r), changed c { s with record := r, mode := .structured }) := by
  rw [step, switchToStructured, if_neg h, leaveText, hm]
  cases hr : s.readText content with
  | error e => simp only [hr]
  | ok r =>
    simp only [hr]
    rfl

theorem leaveText_ok (h : s.toSubmit = .ok r) : ∃ t, s.leaveText c = (.ok (), t) ∧
    t.record = r ∧ t.mode = .structured ∧ t.notifications = s.notifications ∧
      t.fieldErrors = s.fieldErrors := by
  cases hm : s.mode with
  | structured =>
    rw [toSubmit, hm] at h
    exact ⟨s, by rw [leaveText, hm], Except.ok.inj h, hm, rfl, rfl⟩
  | text content old =>
    rw [toSubmit, hm] at h
    exact ⟨_, leaveText_of_read hm h, rfl, rfl, rfl, rfl⟩

theorem leaveText_error {e : RuleText.ParseError} (h : s.toSubmit = .error e) :
    ∃ content old, s.mode = .text content old ∧
      s.leaveText c = (.error e, { s with mode := .text content (some e) }) := by
  cases hm : s.mode with
  | structured =>
    rw [toSubmit, hm] at h
    cases h
  | text content old =>
    rw [toSubmit, hm] at h
    exact ⟨content, old, rfl, by simp only [leaveText, hm, h]⟩

/-- What a store is asked for a record: to update it under its identifier if it has one, and else to
create it. -/
inductive Asks (r : Record) : Store.Request → Prop
  | update {id : String} {d : Document} (hid : r.id = some id) (hne : id ≠ "")
    (hd : r.document = .ok d) : Asks r (.update id d)
  | create {d : Document} (hid : ∀ id ∈ r.id, id = "") (hd : r.document = .ok d) :
    Asks r (.create d)

theorem asks_request (hd : r.document = .ok d) : Asks r (request r d) := by
  cases hid : r.id with
  | none =>
    rw [request, Record.storedId?, hid]
    exact .create (by simp [hid]) hd
  | some id =>
    by_cases hne : id = ""
    · rw [request, Record.storedId?, hid, hne]
      exact .create (by simp [hid, hne]) hd
    · have hstored : r.storedId? = some id := by simp [Record.storedId?, identifier?, hid, hne]
      rw [request, hstored]
      exact .update hid hne hd

theorem Asks.unique {q' : Store.Request} (h : Asks r q) (k : Asks r q') : q = q' := by
  cases h with
  | update hid hne hd =>
    cases k with
    | update hid' _ hd' =>
      cases hid.symm.trans hid'
      cases hd.symm.trans hd'
      rfl
    | create hid' _ => exact absurd (hid' _ (by simp [hid])) hne
  | create hid hd =>
    cases k with
    | update hid' hne _ => exact absurd (hid _ (by simp [hid'])) hne
    | create _ hd' =>
      cases hd.symm.trans hd'
      rfl

def failure (s : Session) (verdict : Except SubmitError Bool) (state : State) (message : String) :
    Submission :=
  { verdict, session := s.notify message state, notice := some message }

def answered (c : Catalog) (act : String) (q : Store.Request) (s : Session) (reply : Reply) :
    Submission :=
  { settle act (s.answerCalls c reply.calls).2 reply.outcome with
    requests := [q]
    calls := (s.answerCalls c reply.calls).1 }

/-- A session `t` that waits for a store with the rule that is submitted in `s`. -/
structure Waiting (c : Catalog) (s t : Session) : Prop where
  locked : t.state = .submitting
  record : s.toSubmit = .ok t.record
  accepted : (t.report c).submittable = true
  mode : t.mode = .structured
  notifications : t.notifications = s.notifications
  fieldErrors : t.fieldErrors = s.fieldErrors

/-- The paths of a submission, each as what comes of it with any store. -/
inductive Path (c : Catalog) (s : Session) : ((Store.Request → Reply) → Submission) → Prop
  | unread {content message : String} {old : Option RuleText.ParseError} {e : RuleText.ParseError}
    (hmode : s.mode = .text content old) (hread : s.toSubmit = .error e) :
    Path c s fun _ => failure { s with mode := .text content (some e) } (.ok false) .invalid message
  | refused {t : Session} {message : String} (hrecord : s.toSubmit = .ok t.record)
    (hgate : (t.report c).submittable = false) (hnotes : t.notifications = s.notifications) :
    Path c s fun _ => failure t (.ok false) .invalid message
  | asked {t : Session} {q : Store.Request} {act : String} (hwait : Waiting c s t)
    (hq : Asks t.record q) : Path c s fun store => answered c act q t (store q)

theorem path_submit (h : s.state ≠ .submitting) : Path c s fun store => s.submit c store := by
  cases hread : s.toSubmit with
  | error e =>
    obtain ⟨content, old, hmode, hleave⟩ := leaveText_error (c := c) hread
    simp only [Session.submit, if_neg h, hleave]
    exact .unread hmode hread
  | ok r =>
    obtain ⟨t, hleave, hrecord, hmode, hnotes, herrors⟩ := leaveText_ok (c := c) hread
    subst hrecord
    cases hgate : (t.report c).submittable with
    | false =>
      simp only [Session.submit, if_neg h, hleave, hgate, Bool.false_eq_true, if_false]
      exact .refused (t := { t with fieldErrors := (t.report c).byField }) hread hgate hnotes
    | true =>
      -- What the gate accepts can be written, so nothing comes between the gate and the store.
      obtain ⟨d, hd⟩ := Document.exists_document
        (RuleText.printableDetection_of_clean (Gate.submittable_iff.mp hgate))
      simp only [Session.submit, if_neg h, hleave, hgate, if_true, handOver, hd]
      exact .asked (t := { t with state := .submitting })
        ⟨rfl, hread, hgate, hmode, hnotes, herrors⟩ (asks_request hd)

theorem exists_path (h : s.state ≠ .submitting) :
    ∃ f, Path c s f ∧ ∀ store, s.submit c store = f store := ⟨_, path_submit h, fun _ => rfl⟩

/-- A submission that saved the rule: nothing is left but the identifier that the store gave. -/
structure Saved (s : Session) (store : Store.Request → Reply) (p : Submission) : Prop where
  verdict : p.verdict = .ok true
  notice : p.notice = none
  notifications : p.session.notifications = s.notifications
  state : p.session.state = .submitted
  fieldErrors : p.session.fieldErrors = .empty
  record : ∃ r q id, s.toSubmit = .ok r ∧ p.requests = [q] ∧ (store q).outcome = .stored id ∧
    p.session.record = { r with id := some id }

/-- Why a submission did not save the rule, and what the submitter is told of it. -/
inductive Unsaved (store : Store.Request → Reply) (p : Submission) : Prop
  | unasked (hq : p.requests = []) (hv : p.verdict = .ok false)
  | refused {q : Store.Request} {reason : String} (hq : p.requests = [q])
    (ho : (store q).outcome = .refused reason) (hv : p.verdict = .ok false)
  | broken {q : Store.Request} {message : String} (hq : p.requests = [q])
    (ho : (store q).outcome = .broken message) (hv : p.verdict = .error (.broken message))
  | reassigned {q : Store.Request} {id current : String} (hq : p.requests = [q])
    (ho : (store q).outcome = .stored id) (hid : p.session.record.id = some current)
    (hne : current ≠ id) (hv : p.verdict = .error (.reassigned ⟨current⟩))

/-- A submission that did not save the rule: it leaves one notification, and the rule as it was
submitted, or the text and the rule behind it if the text cannot be read. -/
structure Failed (s : Session) (store : Store.Request → Reply) (p : Submission) : Prop where
  reason : Unsaved store p
  notice : ∃ message, p.notice = some message ∧
    p.session.notifications = s.notifications ++ [message]
  state : p.session.state = .invalid ∨ p.session.state = .submitFailed
  record : s.toSubmit = .ok p.session.record ∨
    ∃ content old e, s.mode = .text content old ∧ s.toSubmit = .error e ∧
      p.session.record = s.record ∧ p.session.mode = .text content (some e)

def Submission.saved (p : Submission) : Bool :=
  match p.verdict with
  | .ok b => b
  | .error _ => false

theorem assignId_cases (r : Record) (id : String) : r.assignId id = .ok { r with id := some id } ∨
    ∃ current, r.id = some current ∧ current ≠ id ∧ r.assignId id = .error ⟨current⟩ := by
  unfold Record.assignId
  cases hid : r.id with
  | none => exact .inl rfl
  | some current =>
    by_cases he : current = id
    · have hself : { r with id := some id } = r := by rw [← he, ← hid]
      rw [hself]
      exact .inl (if_pos he)
    · exact .inr ⟨current, rfl, he, if_neg he⟩

theorem saved_or_failed_answered (h : Waiting c s t) (act : String) (q : Store.Request) :
    Saved s store (answered c act q t (store q)) ∨ Failed s store (answered c act q t (store q)) := by
  -- The calls of the store leave the rule alone, so its outcome is for what was handed over.
  have hcalls := (metAll_answerCalls h.locked h.accepted (store q).calls).sameRule
  have hrecord : s.toSubmit = .ok (t.answerCalls c (store q).calls).2.record := by
    rw [hcalls.record]
    exact h.record
  have hnotes : (t.answerCalls c (store q).calls).2.notifications = s.notifications :=
    hcalls.notifications.trans h.notifications
  unfold answered
  cases ho : (store q).outcome with
  | refused reason =>
    exact .inr ⟨.refused rfl ho rfl, ⟨_, rfl, congrArg (· ++ _) hnotes⟩, .inr rfl, .inl hrecord⟩
  | broken message =>
    exact .inr ⟨.broken rfl ho rfl, ⟨_, rfl, congrArg (· ++ _) hnotes⟩, .inr rfl, .inl hrecord⟩
  | stored id =>
    rcases assignId_cases (t.answerCalls c (store q).calls).2.record id with
      hassign | ⟨current, hid, hne, hassign⟩
    · simp only [settle, hassign]
      exact .inl ⟨rfl, rfl, hnotes, rfl, rfl, _, _, _, hrecord, rfl, ho, rfl⟩
    · simp only [settle, hassign]
      exact .inr ⟨.reassigned rfl ho hid hne rfl, ⟨_, rfl, congrArg (· ++ _) hnotes⟩, .inr rfl,
        .inl hrecord⟩

theorem Path.saved_or_failed {f : (Store.Request → Reply) → Submission} (h : Path c s f)
    (store : Store.Request → Reply) : Saved s store (f store) ∨ Failed s store (f store) := by
  cases h with
  | unread hmode hread =>
    exact .inr ⟨.unasked rfl rfl, ⟨_, rfl, rfl⟩, .inl rfl,
      .inr ⟨_, _, _, hmode, hread, rfl, rfl⟩⟩
  | refused hrecord _ hnotes =>
    exact .inr ⟨.unasked rfl rfl, ⟨_, rfl, congrArg (· ++ _) hnotes⟩, .inl rfl, .inl hrecord⟩
  | asked hwait _ => exact saved_or_failed_answered hwait _ _

theorem saved_or_failed (h : s.state ≠ .submitting) (store : Store.Request → Reply) :
    Saved s store (s.submit c store) ∨ Failed s store (s.submit c store) :=
  (path_submit h).saved_or_failed store

theorem Saved.saved (h : Saved s store p) : p.saved = true := by
  rw [Submission.saved, h.verdict]

theorem Failed.saved (h : Failed s store p) : p.saved = false := by
  cases h.reason with
  | unasked _ hv => rw [Submission.saved, hv]
  | refused _ _ hv => rw [Submission.saved, hv]
  | broken _ _ hv => rw [Submission.saved, hv]
  | reassigned _ _ _ _ hv => rw [Submission.saved, hv]

theorem idle_submit (h : s.state ≠ .submitting) (store : Store.Request → Reply) :
    (s.submit c store).session.state ≠ .submitting := by
  rcases saved_or_failed (c := c) h store with hs | hf
  · rw [hs.state]
    nofun
  · rcases hf.state with hstate | hstate
    all_goals
      rw [hstate]
      nofun

theorem notifications_submit (h : s.state ≠ .submitting) (store : Store.Request → Reply) :
    (s.submit c store).session.notifications =
      s.notifications ++ (s.submit c store).notice.toList := by
  rcases saved_or_failed (c := c) h store with hs | hf
  · simp [hs.notice, hs.notifications]
  · obtain ⟨message, hnotice, hnotes⟩ := hf.notice
    simp [hnotice, hnotes]

theorem isSome_notice_submit (h : s.state ≠ .submitting) (store : Store.Request → Reply) :
    (s.submit c store).notice.isSome = !(s.submit c store).saved := by
  rcases saved_or_failed (c := c) h store with hs | hf
  · rw [hs.notice, hs.saved]
    rfl
  · obtain ⟨message, hnotice, -⟩ := hf.notice
    rw [hnotice, hf.saved]
    rfl

/-- The requests that a submission may make: of the rule that is submitted, if the gate accepts
it. -/
def MayAsk (c : Catalog) (s : Session) (q : Store.Request) : Prop :=
  ∃ r, s.toSubmit = .ok r ∧ (Gate.evaluate c r).submittable = true ∧ Asks r q

/-- Whether a store is asked, and what for, does not depend on the store, and what comes of the
submission only on what the store does with that request. -/
theorem exists_request (h : s.state ≠ .submitting) : ∃ q? : Option Store.Request,
    (∀ q, q? = some q ↔ MayAsk c s q) ∧ (∀ store, (s.submit c store).requests = q?.toList) ∧
      ∀ store store' : Store.Request → Reply, (∀ q ∈ q?, store q = store' q) →
        s.submit c store = s.submit c store' := by
  obtain ⟨f, hpath, hsubmit⟩ := exists_path (c := c) h
  simp only [hsubmit]
  cases hpath with
  | unread _ hread =>
    refine ⟨none, fun q => ⟨nofun, ?_⟩, fun _ => rfl, fun _ _ _ => rfl⟩
    rintro ⟨r, hr, -, -⟩
    cases hread.symm.trans hr
  | refused hrecord hgate _ =>
    refine ⟨none, fun q => ⟨nofun, ?_⟩, fun _ => rfl, fun _ _ _ => rfl⟩
    rintro ⟨r, hr, haccepted, -⟩
    cases hrecord.symm.trans hr
    cases hgate.symm.trans haccepted
  | @asked t q act hwait hq =>
    refine ⟨some q, fun q' => ⟨?_, ?_⟩, fun _ => rfl, fun store store' heq => ?_⟩
    · rintro hq'
      cases hq'
      exact ⟨_, hwait.record, hwait.accepted, hq⟩
    · rintro ⟨r, hr, -, hq'⟩
      cases hwait.record.symm.trans hr
      rw [hq.unique hq']
    · exact congrArg (answered c act q t) (heq q rfl)

theorem mem_requests_iff (h : s.state ≠ .submitting) (store : Store.Request → Reply) :
    q ∈ (s.submit c store).requests ↔ MayAsk c s q := by
  obtain ⟨q?, hmay, hrequests, -⟩ := exists_request (c := c) h
  rw [hrequests store, Option.mem_toList, hmay q]

theorem length_requests_le_one (c : Catalog) (s : Session) (store : Store.Request → Reply) :
    (s.submit c store).requests.length ≤ 1 := by
  by_cases h : s.state = .submitting
  · rw [submit_locked h]
    exact Nat.zero_le 1
  · obtain ⟨q?, -, hrequests, -⟩ := exists_request (c := c) h
    rw [hrequests store]
    exact Option.length_toList_le

theorem submit_structured (hidle : s.state ≠ .submitting) (hmode : s.mode = .structured)
    (hgate : (s.report c).submittable = true) (hd : s.record.document = .ok d) :
    s.submit c store = answered c (action s.record) (request s.record d)
      { s with state := .submitting } (store (request s.record d)) := by
  simp only [submit, if_neg hidle, leaveText, hmode, hgate, if_true, handOver, hd]
  rfl

theorem submit_refused (hidle : s.state ≠ .submitting) (hmode : s.mode = .structured)
    (hgate : (s.report c).submittable = false) :
    (s.submit c store).verdict = .ok false ∧ (s.submit c store).requests = [] := by
  simp [submit, if_neg hidle, leaveText, hmode, hgate]

theorem request_create (h : r.id = none) : request r d = .create d := by
  rw [request, Record.storedId?, h]
  rfl

theorem request_update {id : String} (h : r.id = some id) (hne : id ≠ "") :
    request r d = .update id d ∧ action r = "update" := by
  have hstored : r.storedId? = some id := by simp [Record.storedId?, identifier?, h, hne]
  rw [request, action, hstored]
  exact ⟨rfl, rfl⟩

end SigmaDesk.Session
