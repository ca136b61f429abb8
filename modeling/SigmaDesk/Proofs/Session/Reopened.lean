import SigmaDesk.Proofs.RuleText.Legible
import SigmaDesk.Proofs.Session.Run

/-!
# The text editor opened and left

A text that is opened and left as it is cannot be read, and the rule stays, or the rule becomes what
its preview shows. That is not always all of a rule that is half filled.
-/

namespace SigmaDesk

open RuleText (bind_ok)

/-- The preview of a record can be read back: what it shows is a draft, and if it shows an
identifier, then the whole of it. -/
def Record.ReadsBack (r : Record) : Prop := r.shown.Draft ∧ ∀ a ∈ r.id, ∀ b ∈ r.shown.id, b = a

instance (r : Record) : Decidable r.ReadsBack :=
  inferInstanceAs (Decidable (r.shown.Draft ∧ ∀ a ∈ r.id, ∀ b ∈ r.shown.id, b = a))

namespace Session

variable {c : Catalog} {s t : Session} {r q : Record} {assigned : Option String} {content : String}

def reopen (c : Catalog) (s : Session) : Except OpError Answer × Session :=
  (s.step c .switchToText).2.step c .switchToStructured

def unread (s : Session) (e : RuleText.ParseError) : Except OpError Answer × Session :=
  (.error (.parse e), { s with mode := .text (RuleText.preview s.record) (some e) })

def replaced (c : Catalog) (s : Session) (r : Record) : Except OpError Answer × Session :=
  (.ok (.record r), changed c { s with record := r })

theorem carryId_ok_iff : carryId assigned content q = .ok r ↔
    (∀ a ∈ assigned, ∀ b ∈ q.id, b = a) ∧ r = { q with id := assigned.or q.id } := by
  refine ⟨fun h => ⟨fun a ha b hb => ?_, carryId_ok h⟩, ?_⟩
  · cases ha
    simp only [carryId, Option.mem_def.mp hb] at h
    split at h
    · assumption
    · cases h
  · rintro ⟨hsame, rfl⟩
    unfold carryId
    split
    · rfl
    · simp
    · rename_i a b hb
      obtain rfl := hsame a rfl b hb
      rw [if_pos rfl, Option.some_or, ← hb]

theorem or_shown_id (r : Record) : r.id.or r.shown.id = r.id := by
  cases hid : r.id with
  | some a => rfl
  | none =>
    have hshown : r.shown.id = identifier? (RuleText.shownValue "") := by
      simp only [Record.shown, hid, Option.getD_none]
    rw [hshown]
    rfl

/-- A legible record is read from its preview as what it shows, under its own identifier. -/
theorem readText_preview_ok_iff (h : s.record.Legible) :
    s.readText (RuleText.preview s.record) = .ok r ↔
      s.record.ReadsBack ∧ r = { s.record.shown with id := s.record.id } := by
  constructor
  · intro hr
    obtain ⟨q, hparse, hcarry⟩ := bind_ok.mp hr
    obtain ⟨hdraft, rfl⟩ := (RuleText.parse_preview_ok_iff h).mp hparse
    obtain ⟨hsame, rfl⟩ := carryId_ok_iff.mp hcarry
    exact ⟨⟨hdraft, hsame⟩, by rw [or_shown_id]⟩
  · rintro ⟨⟨hdraft, hsame⟩, rfl⟩
    refine bind_ok.mpr ⟨_, (RuleText.parse_preview_ok_iff h).mpr ⟨hdraft, rfl⟩, ?_⟩
    exact carryId_ok_iff.mpr ⟨hsame, by rw [or_shown_id]⟩

theorem reopen_eq (h : s.state ≠ .submitting) (hm : s.mode = .structured) :
    s.reopen c = match s.readText (RuleText.preview s.record) with
      | .error e => s.unread e
      | .ok r => s.replaced c r := by
  let opened : Session := { s with mode := .text (RuleText.preview s.record) none }
  have hleft := switchToStructured_text (c := c) (s := opened) h rfl
  rw [readText_congr (s := opened) (t := s) rfl] at hleft
  rw [reopen, switchToText_structured h hm, hleft]
  cases s.readText (RuleText.preview s.record) with
  | error e => rfl
  | ok r => simp only [replaced, opened, hm]

/-- The text editor shows the preview. If it is left with that, either the text cannot be read and
the rule stays, or the rule becomes what is read, under the identifier that it had. Of a legible
record, what is read is what the preview shows, if a rule can have it; and that is the record as it
was exactly if the preview shows all of it. -/
theorem reopen_of_structured (c : Catalog) (r? : Option Record) (as : List Action)
    (hm : ((start r?).run c as).mode = .structured) :
    let s := (start r?).run c as
    let shown := { s.record.shown with id := s.record.id }
    (s.step c .switchToText).1 = .ok (.text (RuleText.preview s.record)) ∧
      ((∃ e, s.reopen c = s.unread e) ∨
        ∃ r, RuleText.parse (RuleText.preview s.record) = .ok r ∧
          s.reopen c = s.replaced c { r with id := s.record.id.or r.id }) ∧
      (s.record.Legible →
        (s.record.ReadsBack → s.reopen c = s.replaced c shown) ∧
        (¬s.record.ReadsBack → ∃ e, s.reopen c = s.unread e) ∧
        (shown = s.record ↔ s.record.Whole)) := by
  intro s shown
  have hidle : s.state ≠ .submitting := idle_run (by cases r? <;> nofun) as
  refine ⟨by rw [switchToText_structured hidle hm], ?_, fun hlegible => ⟨fun hback => ?_,
    fun hback => ?_, RuleText.shown_eq_self_iff⟩⟩
  · rw [reopen_eq hidle hm]
    cases hr : s.readText (RuleText.preview s.record) with
    | error e => exact .inl ⟨e, rfl⟩
    | ok r =>
      obtain ⟨q, hparse, rfl⟩ := readText_ok hr
      exact .inr ⟨q, hparse, rfl⟩
  · rw [reopen_eq hidle hm, (readText_preview_ok_iff hlegible).mpr ⟨hback, rfl⟩]
  · rw [reopen_eq hidle hm]
    cases hr : s.readText (RuleText.preview s.record) with
    | error e => exact ⟨e, rfl⟩
    | ok r => exact absurd ((readText_preview_ok_iff hlegible).mp hr).1 hback

def formed (es : List Edit) : Session := (start none).run .standard (es.map fun e => .op (.edit e))

def halfFilled : Session :=
  formed [.setText .author "soc\nnight shift", .addItem .tags "",
    .setSelectionKey 0 "Image|endswith", .addConditionTerm none]

theorem reopen_of_halfFilled :
    halfFilled.mode = .structured ∧ halfFilled.record.Legible ∧ halfFilled.record.ReadsBack ∧
      halfFilled.reopen .standard =
        halfFilled.replaced .standard { halfFilled.record.shown with id := none } ∧
      ¬halfFilled.record.Whole := by
  have hm : halfFilled.mode = .structured := by decide +kernel
  have hlegible : halfFilled.record.Legible := by decide +kernel
  have hback : halfFilled.record.ReadsBack := by decide +kernel
  have hshown : { halfFilled.record.shown with id := halfFilled.record.id } ≠ halfFilled.record := by
    decide +kernel
  obtain ⟨-, -, hreopen⟩ := reopen_of_structured .standard none _ hm
  obtain ⟨hread, -, hwhole⟩ := hreopen hlegible
  exact ⟨hm, hlegible, hback, hread hback, fun h => hshown (hwhole.mpr h)⟩

/-- The text of a form can be opened and left as it is, and the rule is then another one. -/
structure Loses (c : Catalog) (s : Session) : Prop where
  form : s.mode = .structured
  left : (s.reopen c).2.mode = .structured
  record : (s.reopen c).2.record ≠ s.record

theorem loses_of_read (h : s.state ≠ .submitting) (hm : s.mode = .structured)
    (hr : s.readText (RuleText.preview s.record) = .ok r) (hne : r ≠ s.record) : Loses c s := by
  have hreopen : s.reopen c = s.replaced c r := by rw [reopen_eq h hm, hr]
  exact ⟨hm, by rw [hreopen]; exact hm, by rw [hreopen]; exact hne⟩

/-- A value without a field is not shown, and a name may begin a comment. -/
theorem reopen_replaces : Loses .standard (formed [.setSelectionValue 0 "x"]) ∧
    Loses .standard (formed [.renameSelection 0 "#a"]) := by
  constructor
  · have hlegible : (formed [.setSelectionValue 0 "x"]).record.Legible := by decide +kernel
    have hread := (readText_preview_ok_iff hlegible).mpr ⟨by decide +kernel, rfl⟩
    exact loses_of_read (by decide +kernel) (by decide +kernel) hread (by decide +kernel)
  · have hread : (formed [.renameSelection 0 "#a"]).readText
        (RuleText.preview (formed [.renameSelection 0 "#a"]).record) = .ok {} := by decide +kernel
    exact loses_of_read (by decide +kernel) (by decide +kernel) hread (by decide +kernel)

end Session

end SigmaDesk
