import SigmaDesk.Proofs.Edit
import SigmaDesk.Proofs.Session.Submission

/-!
# Refused calls

A call is refused for reasons that can be told before it is made. It leaves no trace, but that a
text editor that cannot be left shows why.
-/

namespace SigmaDesk.Session

variable {c : Catalog} {s : Session} {o : Op} {err : OpError}

def Op.IsLocked : Op → Prop
  | .edit _ | .switchToText | .setText _ | .switchToStructured => True
  | .blur _ | .preview | .report => False

inductive Refused (s : Session) : Op → OpError → Prop
  | locked {o : Op} (h : s.state = .submitting) (ho : o.IsLocked) : Refused s o .locked
  | textEditorOpen {e : Edit} {content : String} {error : Option RuleText.ParseError}
    (h : s.state ≠ .submitting) (hm : s.mode = .text content error) :
    Refused s (.edit e) .textEditorOpen
  | textEditorClosed {content : String} (h : s.state ≠ .submitting) (hm : s.mode = .structured) :
    Refused s (.setText content) .textEditorClosed
  | impossible {e : Edit} {err : EditError} (h : s.state ≠ .submitting)
    (hm : s.mode = .structured) (he : e.Impossible s.record err) : Refused s (.edit e) (.edit err)
  | unread {content : String} {error : Option RuleText.ParseError} {e : RuleText.ParseError}
    (h : s.state ≠ .submitting) (hm : s.mode = .text content error)
    (he : s.readText content = .error e) : Refused s .switchToStructured (.parse e)

/-- The session after a refused call: as it was, but for why a text could not be left. -/
inductive Kept (s : Session) : OpError → Session → Prop
  | same {err : OpError} (h : ∀ e, err ≠ .parse e) : Kept s err s
  | noted {content : String} {error : Option RuleText.ParseError} (e : RuleText.ParseError)
    (hm : s.mode = .text content error) :
    Kept s (.parse e) { s with mode := .text content (some e) }

theorem refused_of_edit {e : Edit} (h : (s.edit c e).1 = .error err) :
    Refused s (.edit e) err := by
  unfold edit at h
  split at h
  · rename_i hlocked
    cases h
    exact .locked hlocked trivial
  · rename_i hlocked
    split at h
    · rename_i hm
      cases h
      exact .textEditorOpen hlocked hm
    · rename_i hm
      split at h
      · rename_i he
        cases h
        exact .impossible hlocked hm (Edit.apply_eq_error_iff.mp he)
      · cases h

theorem refused_of_switchToStructured (h : (s.switchToStructured c).1 = .error err) :
    Refused s .switchToStructured err := by
  unfold switchToStructured leaveText at h
  split at h
  · rename_i hlocked
    cases h
    exact .locked hlocked trivial
  · rename_i hlocked
    cases hm : s.mode with
    | structured => simp [hm] at h
    | text content error =>
      cases he : s.readText content with
      | ok r => simp [hm, he] at h
      | error e =>
        simp only [hm, he] at h
        cases h
        exact .unread hlocked hm he

theorem refused_of_step (h : (s.step c o).1 = .error err) : Refused s o err := by
  cases o with
  | edit e => exact refused_of_edit h
  | switchToStructured => exact refused_of_switchToStructured h
  | switchToText =>
    simp only [step, switchToText] at h
    split at h
    · rename_i hlocked
      cases h
      exact .locked hlocked trivial
    · split at h <;> cases h
  | setText content =>
    simp only [step, setText] at h
    split at h
    · rename_i hlocked
      cases h
      exact .locked hlocked trivial
    · rename_i hlocked
      split at h
      · cases h
      · rename_i hm
        cases h
        exact .textEditorClosed hlocked hm
  | blur field =>
    simp only [step, blur] at h
    split at h <;> cases h
  | preview => cases h
  | report => cases h

theorem step_of_refused (h : Refused s o err) :
    ∃ t, s.step c o = (.error err, t) ∧ Kept s err t := by
  cases h with
  | locked h ho =>
    refine ⟨s, ?_, .same (by simp)⟩
    cases o with
    | edit e => simp [step, edit, h]
    | switchToText => simp [step, switchToText, h]
    | setText content => simp [step, setText, h]
    | switchToStructured => simp [step, switchToStructured, h]
    | blur field => exact ho.elim
    | preview => exact ho.elim
    | report => exact ho.elim
  | textEditorOpen h hm =>
    refine ⟨s, ?_, .same (by simp)⟩
    simp [step, edit, h, hm]
  | textEditorClosed h hm =>
    refine ⟨s, ?_, .same (by simp)⟩
    simp [step, setText, h, hm]
  | impossible h hm he =>
    refine ⟨s, ?_, .same (by simp)⟩
    simp [step, edit, h, hm, Edit.apply_eq_error_iff.mpr he]
  | @unread content error e h hm he =>
    refine ⟨_, ?_, .noted e hm⟩
    simp [switchToStructured_text h hm, he]

/-- A call is refused exactly for these reasons, whatever the catalog. Other than an attempt to
leave a text that cannot be read, which shows why, it leaves the session as it was. -/
theorem refused_without_trace (c : Catalog) (s : Session) (o : Op) (err : OpError) :
    ((s.step c o).1 = .error err ↔ Refused s o err) ∧
      ((s.step c o).1 = .error err →
        (o ≠ .switchToStructured → (s.step c o).2 = s) ∧
        (o = .switchToStructured → Kept s err (s.step c o).2)) := by
  have hiff : (s.step c o).1 = .error err ↔ Refused s o err := by
    constructor
    · exact refused_of_step
    · intro h
      obtain ⟨t, hstep, -⟩ := step_of_refused (c := c) h
      rw [hstep]
  refine ⟨hiff, ?_⟩
  intro h
  obtain ⟨t, hstep, hkept⟩ := step_of_refused (c := c) (hiff.mp h)
  rw [hstep]
  refine ⟨?_, fun _ => hkept⟩
  intro hne
  cases hkept with
  | same => rfl
  | noted e hm =>
    -- Only a text that is left is read.
    cases hiff.mp h
    exact absurd rfl hne

end SigmaDesk.Session
