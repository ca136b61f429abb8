import SigmaDesk.Proofs.Session.Run

/-!
# What every session keeps

Sessions as they stand between calls, after any run of calls that starts with a new session. What
holds of all of them is kept by each call; a submission keeps it on each of its paths.
-/

namespace SigmaDesk.Session

variable {c : Catalog} {s t : Session}

structure Consistent (c : Catalog) (s : Session) : Prop where
  idle : s.state ≠ .submitting
  clean : s.state = .valid ∨ s.state = .submitted ∨ s.state = .submitFailed →
    (Gate.evaluate c s.record).submittable = true
  mode : s.mode = .structured ↔ s.text? = none
  parseError : s.parseError? ≠ none → s.mode ≠ .structured
  fresh : s.state = .empty → s.record = .fresh
  done : s.state = .submitted → s.fieldErrors = .empty ∧ s.record.id ≠ none

theorem mode_iff (s : Session) : s.mode = .structured ↔ s.text? = none := by
  cases h : s.mode <;> simp [text?, h]

theorem mode_of_parseError (s : Session) (h : s.parseError? ≠ none) : s.mode ≠ .structured := by
  intro hm
  exact h (by simp [parseError?, hm])

theorem Consistent.of_state (idle : s.state ≠ .submitting)
    (clean : s.state = .valid ∨ s.state = .submitted ∨ s.state = .submitFailed →
      (Gate.evaluate c s.record).submittable = true)
    (fresh : s.state = .empty → s.record = .fresh)
    (done : s.state = .submitted → s.fieldErrors = .empty ∧ s.record.id ≠ none) :
    Consistent c s :=
  ⟨idle, clean, s.mode_iff, s.mode_of_parseError, fresh, done⟩

theorem Consistent.setMode (h : Consistent c s) (m : Mode) : Consistent c { s with mode := m } :=
  .of_state h.idle h.clean h.fresh h.done

theorem consistent_start (c : Catalog) (r? : Option Record) : Consistent c (start r?) := by
  cases r? <;> exact .of_state (by simp [start]) (by simp [start]) (by simp [start]) (by simp [start])

theorem consistent_changed (c : Catalog) (s : Session) : Consistent c (s.changed c) := by
  cases hgate : (s.report c).submittable with
  | true =>
    refine .of_state ?_ (fun _ => hgate) ?_ ?_ <;> simp [changed, hgate]
  | false => refine .of_state ?_ ?_ ?_ ?_ <;> simp [changed, hgate]

theorem Consistent.stepped (h : Consistent c s) {o : Op} (ht : Stepped c s o t) : Consistent c t := by
  cases ht with
  | same => exact h
  | opened m => exact h.setMode m
  | edited => exact consistent_changed c _
  | read => exact consistent_changed c _
  | cleared field =>
    refine .of_state h.idle h.clean h.fresh fun hs => ?_
    obtain ⟨hempty, hid⟩ := h.done hs
    exact ⟨by rw [hempty]; rfl, hid⟩
  | noted field messages hstate =>
    have hempty : s.state = .empty := hstate.resolve_left h.idle
    refine .of_state h.idle h.clean h.fresh ?_
    simp [hempty]
  | flagged => refine .of_state ?_ ?_ ?_ ?_ <;> simp

theorem Consistent.step (h : Consistent c s) (o : Op) : Consistent c (s.step c o).2 :=
  h.stepped (stepped_step c s o)

theorem consistent_invalid (c : Catalog) (s : Session) (message : String) :
    Consistent c (s.notify message .invalid) := by
  refine .of_state ?_ ?_ ?_ ?_ <;> simp [notify]

theorem consistent_submitFailed (h : (Gate.evaluate c s.record).submittable = true)
    (message : String) : Consistent c (s.notify message .submitFailed) := by
  refine .of_state ?_ (fun _ => h) ?_ ?_ <;> simp [notify]

theorem consistent_settle (h : (Gate.evaluate c s.record).submittable = true) (act : String)
    (outcome : Store.Outcome) : Consistent c (settle act s outcome).session := by
  cases outcome with
  | refused reason => exact consistent_submitFailed h _
  | broken message => exact consistent_submitFailed h _
  | stored id =>
    rcases assignId_cases s.record id with hassign | ⟨current, -, -, hassign⟩
    · simp only [settle, hassign]
      refine .of_state ?_ (fun _ => h) ?_ ?_ <;> simp
    · simp only [settle, hassign]
      exact consistent_submitFailed h _

theorem consistent_answered (h : Waiting c s t) (act : String) (q : Store.Request) (reply : Reply) :
    Consistent c (answered c act q t reply).session := by
  have hcalls := (metAll_answerCalls h.locked h.accepted reply.calls).sameRule
  refine consistent_settle ?_ act reply.outcome
  rw [hcalls.record]
  exact h.accepted

theorem Consistent.submit (h : Consistent c s) (store : Store.Request → Reply) :
    Consistent c (s.submit c store).session := by
  obtain ⟨f, hpath, hsubmit⟩ := exists_path (c := c) h.idle
  rw [hsubmit]
  cases hpath with
  | unread => exact consistent_invalid c _ _
  | refused => exact consistent_invalid c _ _
  | asked hwait _ => exact consistent_answered hwait _ _ _

theorem Consistent.act (h : Consistent c s) (a : Action) : Consistent c (s.act c a) := by
  cases a with
  | op o => exact h.step o
  | submit store => exact h.submit store

theorem Consistent.run (h : Consistent c s) (as : List Action) : Consistent c (s.run c as) := by
  induction as generalizing s with
  | nil => exact h
  | cons a as ih => exact ih (h.act a)

/-- Every session that calls can lead to is consistent between them. -/
theorem consistent_of_reachable (c : Catalog) (r? : Option Record) (as : List Action) :
    Consistent c ((start r?).run c as) := (consistent_start c r?).run as

end SigmaDesk.Session
