import SigmaDesk.Proofs.Session.Submission

/-!
# Runs

A session goes from call to call, and a submission is one of them. A run leaves one notification for
each submission that failed.
-/

namespace SigmaDesk.Session

variable {c : Catalog} {s : Session}

/-- A call on a session, to submit included. Each submission has a store of its own, which may do
with a request what it wants. -/
inductive Action
  | op (o : Op)
  | submit (store : Store.Request → Reply)

def act (c : Catalog) (s : Session) : Action → Session
  | .op o => (s.step c o).2
  | .submit store => (s.submit c store).session

def run (c : Catalog) (s : Session) (as : List Action) : Session := as.foldl (act c) s

def submissions (c : Catalog) : Session → List Action → List Submission
  | _, [] => []
  | s, .op o :: as => submissions c (s.step c o).2 as
  | s, .submit store :: as =>
    s.submit c store :: submissions c (s.submit c store).session as

theorem idle_act (h : s.state ≠ .submitting) (a : Action) : (s.act c a).state ≠ .submitting := by
  cases a with
  | op o => exact (stepped_step c s o).idle h
  | submit store => exact idle_submit h store

theorem idle_run (h : s.state ≠ .submitting) (as : List Action) :
    (s.run c as).state ≠ .submitting := by
  induction as generalizing s with
  | nil => exact h
  | cons a as ih => exact ih (idle_act h a)

theorem notifications_run (h : s.state ≠ .submitting) (as : List Action) :
    (s.run c as).notifications = s.notifications ++ (s.submissions c as).filterMap (·.notice) := by
  induction as generalizing s with
  | nil => exact (List.append_nil _).symm
  | cons a as ih =>
    have hrun : s.run c (a :: as) = (s.act c a).run c as := rfl
    rw [hrun, ih (idle_act h a)]
    cases a with
    | op o => exact congrArg (· ++ _) (stepped_step c s o).notifications
    | submit store =>
      rw [act, notifications_submit h store, submissions, List.filterMap_eq_flatMap_toList,
        List.filterMap_eq_flatMap_toList, List.flatMap_cons, List.append_assoc]

theorem length_notices (h : s.state ≠ .submitting) (as : List Action) :
    ((s.submissions c as).filterMap (·.notice)).length =
      (s.submissions c as).countP (!·.saved) := by
  rw [List.length_filterMap_eq_countP]
  induction as generalizing s with
  | nil => rfl
  | cons a as ih =>
    cases a with
    | op o => exact ih (idle_act h (.op o))
    | submit store =>
      rw [submissions, List.countP_cons, List.countP_cons, ih (idle_submit h store),
        isSome_notice_submit h store]

/-- A submission asks a store once at most, and only with a rule that the gate accepts; then it
either saves the rule and leaves no notification, or fails and leaves one. So a run leaves one
notification for each submission that failed, in their order. -/
theorem submit_contract (h : s.state ≠ .submitting) :
    (∀ store, (s.submit c store).requests.length ≤ 1) ∧
    (∃ q? : Option Store.Request, (∀ q, q? = some q ↔ MayAsk c s q) ∧
      (∀ store, (s.submit c store).requests = q?.toList) ∧
      ∀ store store' : Store.Request → Reply, (∀ q ∈ q?, store q = store' q) →
        s.submit c store = s.submit c store') ∧
    (∀ store, Saved s store (s.submit c store) ∨ Failed s store (s.submit c store)) ∧
    ∀ as, (s.run c as).state ≠ .submitting ∧
      (s.run c as).notifications = s.notifications ++ (s.submissions c as).filterMap (·.notice) ∧
      ((s.submissions c as).filterMap (·.notice)).length =
        (s.submissions c as).countP (!·.saved) :=
  ⟨length_requests_le_one c s, exists_request h, saved_or_failed h, fun as =>
    ⟨idle_run h as, notifications_run h as, length_notices h as⟩⟩

def complete : Session := start (some (RuleText.tagged []))

theorem submit_contract_complete :
    complete.state ≠ .submitting ∧
      (∃ q, MayAsk .standard complete q ∧
        ∀ store, (complete.submit .standard store).requests = [q]) ∧
      Saved complete (fun _ => { outcome := .stored "7" })
        (complete.submit .standard fun _ => { outcome := .stored "7" }) ∧
      Failed complete (fun _ => { outcome := .broken "down" })
        (complete.submit .standard fun _ => { outcome := .broken "down" }) := by
  have hidle : complete.state ≠ .submitting := nofun
  obtain ⟨-, ⟨q?, hmay, hrequests, -⟩, houtcome, -⟩ := submit_contract (c := .standard) hidle
  have hstored : (complete.submit .standard fun _ => { outcome := .stored "7" }).saved = true := by
    decide +kernel
  have hbroken : (complete.submit .standard fun _ => { outcome := .broken "down" }).saved = false := by
    decide +kernel
  have hsaved := (houtcome fun _ => { outcome := .stored "7" }).resolve_right
    fun hf => Bool.false_ne_true (hf.saved.symm.trans hstored)
  have hfailed := (houtcome fun _ => { outcome := .broken "down" }).resolve_left
    fun hs => Bool.false_ne_true (hbroken.symm.trans hs.saved)
  obtain ⟨-, q, -, -, hq, -⟩ := hsaved.record
  obtain rfl := Option.toList_eq_singleton_iff.mp ((hrequests _).symm.trans hq)
  exact ⟨hidle, ⟨q, (hmay q).mp rfl, hrequests⟩, hsaved, hfailed⟩

end SigmaDesk.Session
