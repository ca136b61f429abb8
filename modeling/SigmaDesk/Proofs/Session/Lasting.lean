import SigmaDesk.Proofs.Session.Run

/-!
# What runs keep of a rule

What holds of records that are read from text, and is kept by edits and identifiers, is kept by
every run.
-/

namespace SigmaDesk.Session

variable {c : Catalog} {s t : Session} {r : Record} {a : Action}

inductive Rewritten (s : Session) : Action → Record → Prop
  | same {a : Action} : Rewritten s a s.record
  | edited {e : Edit} {r : Record} (h : e.apply s.record = .ok r) : Rewritten s (.op (.edit e)) r
  | read {a : Action} {content : String} {q : Record} {id : Option String}
    (h : RuleText.parse content = .ok q) : Rewritten s a { q with id }
  | identified {a : Action} {r : Record} (id : String) (h : Rewritten s a r) :
    Rewritten s a { r with id := some id }

theorem Stepped.rewritten {o : Op} (h : Stepped c s o t) : Rewritten s (.op o) t.record := by
  cases h with
  | edited h => exact .edited h
  | read h =>
    obtain ⟨q, hparse, rfl⟩ := readText_ok h
    exact .read hparse
  | _ => exact .same

theorem rewritten_toSubmit (h : s.toSubmit = .ok r) : Rewritten s a r := by
  unfold toSubmit at h
  split at h
  · cases h
    exact .same
  · obtain ⟨q, hparse, rfl⟩ := readText_ok h
    exact .read hparse

theorem rewritten_submit (c : Catalog) (s : Session) (store : Store.Request → Reply) :
    Rewritten s (.submit store) (s.submit c store).session.record := by
  by_cases h : s.state = .submitting
  · rw [submit_locked h]
    exact .same
  · rcases saved_or_failed (c := c) h store with hs | hf
    · obtain ⟨r, q, id, hr, -, -, hrecord⟩ := hs.record
      rw [hrecord]
      exact .identified id (rewritten_toSubmit hr)
    · rcases hf.record with hr | ⟨_, _, _, -, -, hrecord, -⟩
      · exact rewritten_toSubmit hr
      · rw [hrecord]
        exact .same

theorem rewritten_act (c : Catalog) (s : Session) (a : Action) :
    Rewritten s a (s.act c a).record := by
  cases a with
  | op o => exact (stepped_step c s o).rewritten
  | submit store => exact rewritten_submit c s store

/-- A property that holds of what is read from text, and that identifiers and some edits keep. -/
structure Lasting (allowed : Edit → Prop) (P : Record → Prop) : Prop where
  edit : ∀ {e : Edit} {r r' : Record}, allowed e → P r → e.apply r = .ok r' → P r'
  read : ∀ {content : String} {r : Record}, RuleText.parse content = .ok r → P r
  identify : ∀ {r : Record} (id : Option String), P r → P { r with id }

variable {allowed : Edit → Prop} {P : Record → Prop}

theorem Lasting.rewritten (hk : Lasting allowed P) (h : P s.record)
    (ha : ∀ e, a = .op (.edit e) → allowed e) (hr : Rewritten s a r) : P r := by
  induction hr with
  | same => exact h
  | edited he => exact hk.edit (ha _ rfl) h he
  | read hparse => exact hk.identify _ (hk.read hparse)
  | identified id _ ih => exact hk.identify _ (ih ha)

theorem Lasting.toSubmit (hk : Lasting allowed P) (h : P s.record) (hr : s.toSubmit = .ok r) : P r :=
  hk.rewritten (a := .op .report) h nofun (rewritten_toSubmit hr)

theorem Lasting.run (hk : Lasting allowed P) (h : P s.record) (as : List Action)
    (has : ∀ e, .op (.edit e) ∈ as → allowed e) : P (s.run c as).record := by
  induction as generalizing s with
  | nil => exact h
  | cons a as ih =>
    have hfirst : P (s.act c a).record := by
      refine hk.rewritten h (fun e he => has e ?_) (rewritten_act c s a)
      rw [he]
      exact List.mem_cons_self
    exact ih hfirst fun e he => has e (List.mem_cons_of_mem _ he)

end SigmaDesk.Session
