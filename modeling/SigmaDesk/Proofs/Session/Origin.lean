import SigmaDesk.Proofs.Session.FromText
import SigmaDesk.Proofs.Session.Identifier

/-!
# Where an identifier comes from

The identifier of a rule is the first that a text brings or that a store answers to a creation. If
it is that of a text, the first request of the rule is an update.
-/

namespace SigmaDesk

def Store.Outcome.id? : Store.Outcome → Option String
  | .stored id => some id
  | _ => none

namespace Session

variable {c : Catalog} {s t : Session} {r : Record} {q : Store.Request}

def textId? (s : Session) : Option String :=
  s.text?.bind fun content => (RuleText.parse content).toOption.bind (·.id)

def broughtId? (s : Session) : Action → Option String
  | .op .switchToStructured => s.textId?
  | .op _ => none
  | .submit _ => s.textId?

def assignedId? (c : Catalog) (s : Session) : Action → Option String
  | .op _ => none
  | .submit store =>
    (s.submit c store).requests.findSome? fun
      | .create d => (store (.create d)).outcome.id?
      | .update _ _ => none

def trace (c : Catalog) : Session → List Action → List (Session × Action)
  | _, [] => []
  | s, a :: as => (s, a) :: trace c (s.act c a) as

def textIds (c : Catalog) (s : Session) (as : List Action) : List String :=
  (trace c s as).filterMap fun e => e.1.broughtId? e.2

def storeIds (c : Catalog) (s : Session) (as : List Action) : List String :=
  (trace c s as).filterMap fun e => assignedId? c e.1 e.2

theorem textId?_ne_empty (s : Session) : s.textId? ≠ some "" := by
  intro h
  obtain ⟨content, -, h⟩ := Option.bind_eq_some_iff.mp h
  obtain ⟨r, hr, hid⟩ := Option.bind_eq_some_iff.mp h
  cases hparse : RuleText.parse content with
  | error e => simp [hparse, Except.toOption] at hr
  | ok q =>
    obtain rfl : q = r := by simpa [hparse, Except.toOption] using hr
    exact (RuleText.readable_of_parse hparse).id hid

theorem broughtId?_ne_empty (s : Session) (a : Action) : s.broughtId? a ≠ some "" := by
  cases a with
  | submit store => exact s.textId?_ne_empty
  | op o =>
    cases o with
    | switchToStructured => exact s.textId?_ne_empty
    | _ => nofun

theorem textId?_structured (h : s.mode = .structured) : s.textId? = none := by
  rw [textId?, text?, h]
  rfl

theorem textId?_text {content : String} {old : Option RuleText.ParseError}
    (h : s.mode = .text content old) :
    s.textId? = (RuleText.parse content).toOption.bind (·.id) := by
  rw [textId?, text?, h]
  rfl

theorem id_toSubmit_eq (h : s.toSubmit = .ok r) : r.id = s.record.id.or s.textId? := by
  cases hm : s.mode with
  | structured =>
    rw [toSubmit, hm] at h
    rw [textId?_structured hm, Option.or_none, Except.ok.inj h]
  | text content old =>
    rw [toSubmit, hm] at h
    obtain ⟨q, hparse, rfl⟩ := readText_ok h
    rw [textId?_text hm, hparse]
    rfl

theorem id_of_unread {e : RuleText.ParseError} (h : s.toSubmit = .error e) :
    s.record.id.or s.textId? = s.record.id := by
  cases hid : s.record.id with
  | some id => rfl
  | none =>
    cases hm : s.mode with
    | structured => rw [textId?_structured hm, Option.or_none]
    | text content old =>
      rw [toSubmit, hm] at h
      cases hparse : RuleText.parse content with
      | error e => rw [textId?_text hm, hparse]; rfl
      | ok q =>
        -- A session without an identifier takes the text as it is.
        simp [readText, hparse, hid, carryId, bind, Except.bind] at h

theorem id_leaveText (c : Catalog) (s : Session) :
    (s.leaveText c).2.record.id = s.record.id.or s.textId? := by
  cases h : s.toSubmit with
  | ok r =>
    obtain ⟨t, hleave, hrecord, -⟩ := leaveText_ok (c := c) h
    rw [hleave, hrecord, id_toSubmit_eq h]
  | error e =>
    obtain ⟨content, old, -, hleave⟩ := leaveText_error (c := c) h
    rw [hleave, id_of_unread h]

theorem Stepped.id {o : Op} (h : Stepped c s o t) (ho : o ≠ .switchToStructured) :
    t.record.id = s.record.id := by
  cases h with
  | edited he => exact (Record.edited_of_apply he).id
  | read => exact absurd rfl ho
  | _ => rfl

theorem id_step (h : s.state ≠ .submitting) (o : Op) :
    (s.step c o).2.record.id = s.record.id.or (s.broughtId? (.op o)) := by
  -- Only to leave the text editor brings an identifier.
  have hkept (ho : o ≠ .switchToStructured) (hnone : s.broughtId? (.op o) = none) :
      (s.step c o).2.record.id = s.record.id.or (s.broughtId? (.op o)) := by
    rw [(stepped_step c s o).id ho, hnone, Option.or_none]
  cases o with
  | switchToStructured => rw [step, switchToStructured_session, if_neg h, broughtId?, id_leaveText]
  | _ => exact hkept (by simp) rfl

theorem id_settle_eq (s : Session) (act : String) (outcome : Store.Outcome) :
    (settle act s outcome).session.record.id = s.record.id.or outcome.id? := by
  cases hid : s.record.id with
  | some id => exact id_settle hid act outcome
  | none =>
    cases outcome with
    | refused reason => exact hid
    | broken message => exact hid
    | stored id => simp only [settle, Record.assignId, hid]; rfl

theorem id_submit_eq (h : s.state ≠ .submitting) (store : Store.Request → Reply) :
    (s.submit c store).session.record.id =
      s.record.id.or (s.textId?.or (assignedId? c s (.submit store))) := by
  obtain ⟨f, hpath, hsubmit⟩ := exists_path (c := c) h
  rw [assignedId?, hsubmit, ← Option.or_assoc]
  cases hpath with
  | unread hmode hread => exact (id_of_unread hread).symm.trans (Option.or_none).symm
  | refused hrecord => exact (id_toSubmit_eq hrecord).trans (Option.or_none).symm
  | @asked t q act hwait hq =>
    have ht : t.record.id = s.record.id.or s.textId? := id_toSubmit_eq hwait.record
    have hsame : (t.answerCalls c (store q).calls).2.record = t.record :=
      (metAll_answerCalls hwait.locked hwait.accepted (store q).calls).sameRule.record
    have hsettle : (answered c act q t (store q)).session.record.id =
        t.record.id.or (store q).outcome.id? := by
      rw [← hsame]
      exact id_settle_eq _ act _
    rw [hsettle, ← ht]
    cases hq with
    | update hid => rw [hid]; rfl
    | create => simp [answered]

/-- What a call gives to a rule without an identifier: the one of the text that it leaves, or else
the one that the store answers. -/
def givenId? (c : Catalog) (s : Session) (a : Action) : Option String :=
  (s.broughtId? a).or (assignedId? c s a)

theorem id_act_eq (h : s.state ≠ .submitting) (a : Action) :
    (s.act c a).record.id = s.record.id.or (givenId? c s a) := by
  cases a with
  | op o => exact (id_step h o).trans (by rw [givenId?, assignedId?, Option.or_none])
  | submit store => exact id_submit_eq h store

theorem trace_append (s : Session) (as bs : List Action) :
    trace c s (as ++ bs) = trace c s as ++ trace c (s.run c as) bs := by
  induction as generalizing s with
  | nil => rfl
  | cons a as ih => exact congrArg ((s, a) :: ·) (ih (s.act c a))

theorem textIds_submit (s : Session) (as : List Action) (store : Store.Request → Reply) :
    textIds c s (as ++ [.submit store]) = textIds c s as ++ (s.run c as).textId?.toList := by
  rw [textIds, trace_append, List.filterMap_append]
  cases h : (s.run c as).textId? <;> simp [trace, broughtId?, h, textIds]

/-- An identifier is the one that the session started with, or the first that came on the way. -/
theorem id_run_eq (h : s.state ≠ .submitting) (as : List Action) :
    (s.run c as).record.id =
      s.record.id.or ((trace c s as).findSome? fun e => givenId? c e.1 e.2) := by
  induction as generalizing s with
  | nil => exact (Option.or_none).symm
  | cons a as ih =>
    have hrun : s.run c (a :: as) = (s.act c a).run c as := rfl
    rw [hrun, ih (idle_act h a), id_act_eq h a, trace, List.findSome?_cons, Option.or_assoc]
    cases givenId? c s a <;> rfl

theorem id_run_eq_none_iff (h : s.state ≠ .submitting) (as : List Action) :
    (s.run c as).record.id = none ↔
      s.record.id = none ∧ textIds c s as = [] ∧ storeIds c s as = [] := by
  rw [id_run_eq h, Option.or_eq_none_iff, List.findSome?_eq_none_iff, textIds, storeIds,
    List.filterMap_eq_nil_iff, List.filterMap_eq_nil_iff, ← forall₂_and]
  simp only [givenId?, Option.or_eq_none_iff]

theorem id_run_ne_empty (h : s.state ≠ .submitting) (hid : s.record.id ≠ some "") {as : List Action}
    (hstore : storeIds c s as = []) : (s.run c as).record.id ≠ some "" := by
  rw [id_run_eq h]
  intro hempty
  rcases Option.or_eq_some_iff.mp hempty with hstart | ⟨-, hgiven⟩
  · exact hid hstart
  · obtain ⟨e, he, hgiven⟩ := List.exists_of_findSome?_eq_some hgiven
    have hassigned : assignedId? c e.1 e.2 = none := List.filterMap_eq_nil_iff.mp hstore e he
    rw [givenId?, hassigned, Option.or_none] at hgiven
    exact broughtId?_ne_empty e.1 e.2 hgiven

theorem id_calls_eq (h : s.state ≠ .submitting) (store : Store.Request → Reply) :
    ∀ a ∈ (s.submit c store).calls, a.2.record.id = s.record.id.or s.textId? := by
  obtain ⟨f, hpath, hsubmit⟩ := exists_path (c := c) h
  rw [hsubmit]
  cases hpath with
  | unread => exact List.forall_mem_nil _
  | refused => exact List.forall_mem_nil _
  | @asked t q act hwait =>
    intro a ha
    have hmet := metAll_answerCalls hwait.locked hwait.accepted (store q).calls
    rw [(hmet.sameRule_of_mem ha).record, id_toSubmit_eq hwait.record]

theorem creates_iff (h : s.state ≠ .submitting) (hid : s.record.id ≠ some "")
    {store : Store.Request → Reply} (hq : q ∈ (s.submit c store).requests) :
    (∃ d, q = .create d) ↔ s.record.id = none ∧ s.textId? = none := by
  obtain ⟨r, hr, -, hasks⟩ := (mem_requests_iff h store).mp hq
  have hne : r.id ≠ some "" := by
    rw [id_toSubmit_eq hr]
    intro hempty
    rcases Option.or_eq_some_iff.mp hempty with hstart | ⟨-, htext⟩
    · exact hid hstart
    · exact s.textId?_ne_empty htext
  rw [← Option.or_eq_none_iff, ← id_toSubmit_eq hr]
  cases hasks with
  | update hsome => simp [hsome]
  | @create d hcreate hd =>
    refine iff_of_true ⟨d, rfl⟩ (Option.eq_none_iff_forall_not_mem.mpr fun id hmem => ?_)
    obtain rfl := hcreate id hmem
    exact hne hmem

theorem storeIds_of_unasked {as : List Action}
    (h : ∀ p ∈ s.submissions c as, p.requests = []) : storeIds c s as = [] := by
  induction as generalizing s with
  | nil => rfl
  | cons a as ih =>
    cases a with
    | op o => exact ih h
    | submit store =>
      rw [submissions, List.forall_mem_cons] at h
      have hnone : assignedId? c s (.submit store) = none := by
        rw [assignedId?, h.1, List.findSome?_nil]
      simp only [storeIds, trace, List.filterMap_cons, hnone]
      exact ih h.2

/-- A new rule gets its identifier from a store, unless a text brings one before. Without such a
text, it has none until a store has answered a creation, also while a store is at work, and the
first request is a creation. With one it has an identifier that no store gave, and the first request
is an update. -/
theorem id_of_new (c : Catalog) (as : List Action) (store : Store.Request → Reply) :
    let s := (start none).run c as
    let brought := textIds c (start none) (as ++ [.submit store])
    (s.record.id = none ↔ textIds c (start none) as = [] ∧ storeIds c (start none) as = []) ∧
      (∀ a ∈ (s.submit c store).calls,
        (a.2.record.id = none ↔ brought = [] ∧ storeIds c (start none) as = [])) ∧
      ((∀ p ∈ (start none).submissions c as, p.requests = []) →
        ∀ q ∈ (s.submit c store).requests, ((∃ d, q = .create d) ↔ brought = [])) := by
  intro s brought
  have hidle : (start none).state ≠ .submitting := nofun
  have hid : s.record.id = none ↔
      textIds c (start none) as = [] ∧ storeIds c (start none) as = [] :=
    (id_run_eq_none_iff hidle as).trans (and_iff_right rfl)
  have hbrought : brought = [] ↔ textIds c (start none) as = [] ∧ s.textId? = none := by
    rw [show brought = _ from textIds_submit _ as store, List.append_eq_nil_iff,
      Option.toList_eq_nil_iff]
  refine ⟨hid, fun a ha => ?_, fun hfirst q hq => ?_⟩
  · rw [id_calls_eq (idle_run hidle as) store a ha, Option.or_eq_none_iff, hid, hbrought]
    exact and_right_comm
  · have hstore := storeIds_of_unasked hfirst
    have hne : s.record.id ≠ some "" := id_run_ne_empty hidle nofun hstore
    rw [creates_iff (idle_run hidle as) hne hq, hid, hbrought, and_iff_left hstore]

def typed : List Action :=
  [.op .switchToText, .op (.setText (RuleText.preview owned)), .op .switchToStructured]

theorem submissions_typed : (start none).submissions .standard typed = [] := rfl

theorem run_typed :
    (start none).run .standard typed = changed .standard { start none with record := owned } := by
  let opened : Session := { start none with mode := .text (RuleText.preview .fresh) none }
  let filled : Session := { start none with mode := .text (RuleText.preview owned) none }
  have hopen : (start none).act .standard (.op .switchToText) = opened := by
    rw [act, switchToText_structured (by decide) rfl]
    rfl
  have hfill : opened.act .standard (.op (.setText (RuleText.preview owned))) = filled := rfl
  have hdraft : owned.Draft := by decide +kernel
  have hread : filled.readText (RuleText.preview owned) = .ok owned := by
    rw [readText, RuleText.parse_preview hdraft]
    rfl
  have hleave : filled.act .standard (.op .switchToStructured) =
      changed .standard { start none with record := owned } := by
    rw [act, switchToStructured_text (by decide) rfl, hread]
    rfl
  simp only [run, typed, List.foldl_cons, List.foldl_nil, hopen, hfill, hleave]

theorem id_of_typed : textIds .standard (start none) typed ≠ [] ∧
    ((start none).run .standard typed).record.id ≠ none := by
  have hid : ((start none).run .standard typed).record.id ≠ none := by
    rw [run_typed]
    nofun
  have hstore : storeIds .standard (start none) typed = [] := by
    refine storeIds_of_unasked ?_
    rw [submissions_typed]
    exact List.forall_mem_nil _
  refine ⟨fun htext => hid ?_, hid⟩
  exact (id_of_new .standard typed (answering "9")).1.mpr ⟨htext, hstore⟩

/-- A new rule has an identifier although no store was ever asked, and the first request is an
update. -/
theorem first_request_updates :
    (start none).submissions .standard typed = [] ∧
    ((start none).run .standard typed).record.id = some "7" ∧
    (((start none).run .standard typed).submit .standard (answering "9")).requests.map
      (·.target "fresh") = ["7"] := by
  rw [run_typed]
  exact ⟨submissions_typed, rfl, by decide +kernel⟩

end Session

end SigmaDesk
