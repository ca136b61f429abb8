import SigmaDesk.Proofs.Edit
import SigmaDesk.Proofs.Session.Run

/-!
# An identifier is kept

A rule comes by its identifier from the session it starts in, from a text or from a store. From then
on no edit, no text and no answer of a store replaces it.
-/

namespace SigmaDesk

theorem Record.eq_of_assignId {r r' : Record} {id id' : String} (hid : r.id = some id)
    (h : r.assignId id' = .ok r') : r' = r := by
  simp only [assignId, hid] at h
  split at h
  · cases h
    rfl
  · cases h

namespace Session

variable {c : Catalog} {s t : Session} {r : Record} {id : String}

theorem id_readText (hid : s.record.id = some id) {content : String}
    (h : s.readText content = .ok r) : r.id = some id := by
  obtain ⟨q, -, rfl⟩ := readText_ok h
  simp only [hid, Option.some_or]

theorem id_toSubmit (hid : s.record.id = some id) (h : s.toSubmit = .ok r) : r.id = some id := by
  unfold toSubmit at h
  split at h
  · cases h
    exact hid
  · exact id_readText hid h

theorem id_stepped {o : Op} (hid : s.record.id = some id) (ht : Stepped c s o t) :
    t.record.id = some id := by
  cases ht with
  | edited he => exact (Record.edited_of_apply he).id.trans hid
  | read hr => exact id_readText hid hr
  | _ => exact hid

theorem id_settle (hid : s.record.id = some id) (act : String) (outcome : Store.Outcome) :
    (settle act s outcome).session.record.id = some id := by
  cases outcome with
  | refused reason => exact hid
  | broken message => exact hid
  | stored id' =>
    cases h : s.record.assignId id' with
    | ok r =>
      simp only [settle, h]
      rw [Record.eq_of_assignId hid h, hid]
    | error e =>
      simp only [settle, h]
      exact hid

theorem MetAll.sameRule_of_mem {calls : List Call} {answers : Calls}
    (h : MetAll c s calls answers t) {a : Except OpError Answer × Session} (ha : a ∈ answers) :
    SameRule s a.2 := by
  induction h with
  | nil => cases ha
  | cons head _ ih =>
    rcases List.mem_cons.mp ha with rfl | ha
    · exact head.sameRule
    · exact head.sameRule.trans (ih ha)

theorem id_submit (hid : s.record.id = some id) (store : Store.Request → Reply) :
    (s.submit c store).session.record.id = some id ∧
      ∀ a ∈ (s.submit c store).calls, a.2.record.id = some id := by
  by_cases h : s.state = .submitting
  · rw [submit_locked h]
    exact ⟨hid, List.forall_mem_nil _⟩
  · obtain ⟨f, hpath, hsubmit⟩ := exists_path (c := c) h
    rw [hsubmit]
    cases hpath with
    | unread => exact ⟨hid, List.forall_mem_nil _⟩
    | refused hrecord => exact ⟨id_toSubmit hid hrecord, List.forall_mem_nil _⟩
    | @asked t q act hwait =>
      have ht : t.record.id = some id := id_toSubmit hid hwait.record
      have hmet := metAll_answerCalls hwait.locked hwait.accepted (store q).calls
      refine ⟨id_settle ?_ act _, fun a ha => ?_⟩
      · rw [hmet.sameRule.record, ht]
      · rw [(hmet.sameRule_of_mem ha).record, ht]

theorem id_act (hid : s.record.id = some id) (a : Action) : (s.act c a).record.id = some id := by
  cases a with
  | op o => exact id_stepped hid (stepped_step c s o)
  | submit store => exact (id_submit hid store).1

theorem id_run (hid : s.record.id = some id) (as : List Action) :
    (s.run c as).record.id = some id := by
  induction as generalizing s with
  | nil => exact hid
  | cons a as ih => exact ih (id_act hid a)

theorem id_calls (hid : s.record.id = some id) (as : List Action) :
    ∀ p ∈ s.submissions c as, ∀ a ∈ p.calls, a.2.record.id = some id := by
  induction as generalizing s with
  | nil => exact List.forall_mem_nil _
  | cons a as ih =>
    have hrest := ih (id_act (c := c) hid a)
    cases a with
    | op o => exact hrest
    | submit store =>
      rw [submissions, List.forall_mem_cons]
      exact ⟨(id_submit hid store).2, hrest⟩

/-- An identifier that a rule has after some calls is the one it has after any calls that follow,
and the one that the stores see while they are asked. -/
theorem id_kept (c : Catalog) (s : Session) {as : List Action}
    (h : (s.run c as).record.id = some id) (bs : List Action) :
    (s.run c (as ++ bs)).record.id = some id ∧
      ∀ p ∈ (s.run c as).submissions c bs, ∀ a ∈ p.calls, a.2.record.id = some id := by
  have hrun : s.run c (as ++ bs) = (s.run c as).run c bs := List.foldl_append
  exact ⟨hrun ▸ id_run h bs, id_calls h bs⟩

def answering (id : String) : Store.Request → Reply :=
  fun _ => { outcome := .stored id, calls := [.op .report] }

def reassigning : List Action :=
  [.op .switchToText, .op (.setText "title: x\nid: 9\ndetection:\n"), .op .switchToStructured,
    .op (.setText (RuleText.preview (RuleText.tagged []))), .op .switchToStructured,
    .submit (answering "9")]

theorem id_kept_reassigning :
    (complete.run .standard [.submit (answering "7")]).record.id = some "7" ∧
    (complete.run .standard ([.submit (answering "7")] ++ reassigning)).record.id = some "7" ∧
    ∀ p ∈ (complete.run .standard [.submit (answering "7")]).submissions .standard reassigning,
      ∀ a ∈ p.calls, a.2.record.id = some "7" := by
  have hid : (complete.run .standard [.submit (answering "7")]).record.id = some "7" := by
    decide +kernel
  exact ⟨hid, id_kept .standard complete hid reassigning⟩

end Session

end SigmaDesk
