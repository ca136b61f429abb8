import SigmaDesk.Proofs.Session.Submission

/-!
# Locked out during a submission

Calls of a store on the session that waits for it change at most what is shown at the fields; the
submission comes to what it would have come to without them.
-/

namespace SigmaDesk.Session

variable {c : Catalog} {s t u : Session}

/-- The store that meets every request as another one does, without calling the session. -/
def silent (store : Store.Request → Reply) : Store.Request → Reply :=
  fun q => { store q with calls := [] }

/-- Two submissions that come to the same, but for what is shown at the fields of a rule that was
not saved. -/
structure SameOutcome (p p' : Submission) : Prop where
  verdict : p'.verdict = p.verdict
  notice : p'.notice = p.notice
  requests : p'.requests = p.requests
  session : SameRule p.session p'.session
  fieldErrors : p.verdict = .ok true → p'.session.fieldErrors = p.session.fieldErrors

theorem SameOutcome.refl (p : Submission) : SameOutcome p p :=
  ⟨rfl, rfl, rfl, .refl _, fun _ => rfl⟩

theorem SameRule.notify (h : SameRule t u) (message : String) (state : State) :
    SameRule (t.notify message state) (u.notify message state) :=
  ⟨h.record, rfl, h.mode, congrArg (· ++ [message]) h.notifications⟩

theorem SameRule.settle (h : SameRule t u) (act : String) (outcome : Store.Outcome) :
    SameOutcome (settle act t outcome) (settle act u outcome) := by
  cases outcome with
  | refused reason => exact ⟨rfl, rfl, rfl, h.notify _ _, fun hv => by cases hv⟩
  | broken message => exact ⟨rfl, rfl, rfl, h.notify _ _, fun hv => by cases hv⟩
  | stored id =>
    rcases assignId_cases t.record id with hassign | ⟨current, -, -, hassign⟩
    · simp only [Session.settle, h.record, hassign]
      exact ⟨rfl, rfl, rfl, ⟨rfl, rfl, h.mode, h.notifications⟩, fun _ => rfl⟩
    · simp only [Session.settle, h.record, hassign]
      exact ⟨rfl, rfl, rfl, h.notify _ _, fun hv => by cases hv⟩

theorem Waiting.sameOutcome (h : Waiting c s t) (act : String) (q : Store.Request)
    (store : Store.Request → Reply) :
    SameOutcome (answered c act q t (silent store q)) (answered c act q t (store q)) := by
  have hcalls := (metAll_answerCalls h.locked h.accepted (store q).calls).sameRule
  have hsettle := hcalls.settle act (store q).outcome
  exact ⟨hsettle.verdict, hsettle.notice, rfl, hsettle.session, hsettle.fieldErrors⟩

/-- Whatever a store calls the session with, the calls are met as by a locked session, and the
submission comes to the same as without them. A store that is not asked makes no calls. -/
theorem calls_locked_out (c : Catalog) (s : Session) (store : Store.Request → Reply) :
    (∀ q ∈ (s.submit c store).requests, ∃ t u, Waiting c s t ∧
      MetAll c t (store q).calls (s.submit c store).calls u) ∧
    ((s.submit c store).requests = [] → (s.submit c store).calls = []) ∧
    SameOutcome (s.submit c (silent store)) (s.submit c store) := by
  by_cases h : s.state = .submitting
  · rw [submit_locked h, submit_locked h]
    exact ⟨List.forall_mem_nil _, fun _ => rfl, .refl _⟩
  · obtain ⟨f, hpath, hsubmit⟩ := exists_path (c := c) h
    simp only [hsubmit]
    cases hpath with
    | unread => exact ⟨List.forall_mem_nil _, fun _ => rfl, .refl _⟩
    | refused => exact ⟨List.forall_mem_nil _, fun _ => rfl, .refl _⟩
    | @asked t q act hwait =>
      refine ⟨fun q' hq' => ?_, nofun, hwait.sameOutcome act q store⟩
      obtain rfl := List.mem_singleton.mp hq'
      exact ⟨t, _, hwait, metAll_answerCalls hwait.locked hwait.accepted _⟩

end SigmaDesk.Session
