import SigmaDesk.Proofs.Acceptance
import SigmaDesk.Proofs.Session.Submission
import SigmaDesk.RuleText.Writer

/-!
# Accepted records are rendered

A record that the gate has nothing against has a document, a detection block and a view, and the
three agree. So no submission breaks off because a rule cannot be written.
-/

namespace SigmaDesk

variable {c : Catalog} {r : Record} {v : String}

namespace Session

theorem submit_ne_unwritable (c : Catalog) (s : Session) (store : Store.Request → Reply)
    (e : RuleText.WriteError) : (s.submit c store).verdict ≠ .error (.unwritable e) := by
  intro hv
  by_cases hlocked : s.state = .submitting
  · rw [submit_locked hlocked] at hv
    cases hv
  · rcases saved_or_failed (c := c) hlocked store with hsaved | hfailed
    · cases hsaved.verdict.symm.trans hv
    · cases hfailed.reason with
      | unasked _ hverdict => cases hverdict.symm.trans hv
      | refused _ _ hverdict => cases hverdict.symm.trans hv
      | broken _ _ hverdict => cases hverdict.symm.trans hv
      | reassigned _ _ _ _ hverdict => cases hverdict.symm.trans hv

end Session

namespace RuleText

theorem write_error_iff : (∃ e, write r = .error e) ↔ ¬Printable r := by
  cases h : write r with
  | error e =>
    refine iff_of_true ⟨e, rfl⟩ fun hp => ?_
    cases h.symm.trans (write_ok_iff.mpr ⟨hp, rfl⟩)
  | ok t => exact iff_of_false nofun (not_not_intro (write_ok_iff.mp h).1)

end RuleText

namespace Gate

theorem exists_lineEnd_iff :
    Text.isSingleLine v ≠ true ↔ '\n' ∈ v.toList ∨ '\r' ∈ v.toList := by
  rw [ne_eq, isSingleLine_iff, OneLine, not_and_or, not_not, not_not]

/-- What the gate has nothing against is rendered: there is a document, with the detection block that
the view shows as well, and no submission breaks off in the writing. The text of the rule is refused
exactly if there is a line feed or a carriage return in the identifier, in the log type, in the level
or in the status. -/
theorem rendered_of_accepted (h : (evaluate c r).failures = []) :
    (∃ d t, r.document = .ok d ∧ RuleText.writeDetection r = .ok t ∧
      d.get? "detection" = some (.text t) ∧ r.view.detection = t) ∧
    (∀ (s : Session) (store : Store.Request → Session.Reply) (e : RuleText.WriteError),
      (s.submit c store).verdict ≠ .error (.unwritable e)) ∧
    ((∃ e, RuleText.write r = .error e) ↔
      ∃ v ∈ [r.id.getD "", r.logType, r.level, r.status], '\n' ∈ v.toList ∨ '\r' ∈ v.toList) := by
  have hclean : Clean c r := submittable_iff.mp (List.isEmpty_iff.mpr h)
  refine ⟨?_, fun s => s.submit_ne_unwritable c, ?_⟩
  · obtain ⟨d, hd⟩ := Document.exists_document (RuleText.printableDetection_of_clean hclean)
    obtain ⟨-, t, ht, hdetection⟩ := Document.spec_of_document hd
    exact ⟨d, t, hd, ht, hdetection, RuleText.previewDetection_eq ht⟩
  · rw [RuleText.write_error_iff, RuleText.printable_iff_of_clean hclean]
    simp only [not_forall, exists_prop, exists_lineEnd_iff]

def splitCatalog : Catalog := { Catalog.standard with logTypes := ["win\ndows"] }

def splitRule : Record := { RuleText.tagged [] with logType := "win\ndows" }

theorem rendered_of_split : (evaluate splitCatalog splitRule).failures = [] ∧
    (∃ d, splitRule.document = .ok d) ∧ ∃ e, RuleText.write splitRule = .error e := by
  have hfailures : (evaluate splitCatalog splitRule).failures = [] := by decide +kernel
  obtain ⟨⟨d, t, hd, -⟩, -, hwrite⟩ := rendered_of_accepted hfailures
  have hbroken : '\n' ∈ splitRule.logType.toList := by decide
  exact ⟨hfailures, ⟨d, hd⟩, hwrite.mpr ⟨splitRule.logType, by simp, .inl hbroken⟩⟩

end Gate

end SigmaDesk
