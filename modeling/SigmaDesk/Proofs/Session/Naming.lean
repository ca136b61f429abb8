import SigmaDesk.Proofs.Naming
import SigmaDesk.Proofs.Session.Lasting

/-!
# Added selections in a session

A form that is not locked can always add a selection without a name, and no run that renames none
makes two selections share a name, whatever text it reads meanwhile.
-/

namespace SigmaDesk.Session

variable {c : Catalog} {s : Session} {name : Option String}

theorem step_addSelection_unnamed (hidle : s.state ≠ .submitting) (hmode : s.mode = .structured)
    (hname : name.getD "" = "") :
    (s.step c (.edit (.addSelection name))).1 =
      .ok (.selection { name := s.record.nextSelectionName }) := by
  have happly := Edit.apply_addSelection_unnamed (r := s.record) hname
  simp [step, edit, hidle, hmode, happly, editAnswer]

theorem lasting_distinct : Lasting (¬·.Renames) (·.selectionNames.Nodup) where
  edit hkeeps h he := Edit.distinct_apply h hkeeps he
  read hparse := (RuleText.readable_of_parse hparse).distinct
  identify _ h := h

/-- The search for the name of an added selection ends after at most one try more than there are
selections, at the least number whose name is free. So a form that is not locked never refuses to
add a selection without a name, and without renamings the names stay different from each other. -/
theorem added_names (c : Catalog) (r : Record) :
    (∃ n tries, Record.Searches r.selectionNames 1 tries n ∧ tries ≤ r.selections.length + 1 ∧
      1 ≤ n ∧ r.nextSelectionName = "Selection_" ++ toString n ∧
      "Selection_" ++ toString n ∉ r.selectionNames ∧
      ∀ m, 1 ≤ m → m < n → "Selection_" ++ toString m ∈ r.selectionNames) ∧
    ∀ s : Session, s.record = r →
      (s.state ≠ .submitting → s.mode = .structured → ∀ name : Option String, name.getD "" = "" →
        (s.step c (.edit (.addSelection name))).1 =
          .ok (.selection { name := r.nextSelectionName })) ∧
      (r.selectionNames.Nodup → ∀ as, (∀ e, .op (.edit e) ∈ as → ¬e.Renames) →
        (s.run c as).record.selectionNames.Nodup) := by
  constructor
  · obtain ⟨n, tries, htries, hsearch, hname⟩ := r.searches_nextSelectionName
    obtain ⟨hle, hfree, hbefore⟩ := hsearch.spec
    exact ⟨n, tries, hsearch, htries, hle, hname, hfree, hbefore⟩
  · rintro s rfl
    exact ⟨fun hidle hmode name hname => step_addSelection_unnamed hidle hmode hname,
      fun hdistinct as has => lasting_distinct.run hdistinct as has⟩

def crowded : Record where
  selections := [{ name := "Selection_2" }, { name := "Selection_01" }, { name := "Selection_1" }]

theorem added_names_crowded :
    crowded.nextSelectionName = "Selection_3" ∧
      ((start (some crowded)).step .standard (.edit (.addSelection none))).1 =
        .ok (.selection { name := crowded.nextSelectionName }) ∧
      ((start (some crowded)).run .standard [.op (.edit (.addSelection none)),
        .op (.edit (.removeSelection 0)), .op (.edit (.addSelection (some "Selection_3"))),
        .op (.edit (.addSelection none))]).record.selectionNames.Nodup := by
  obtain ⟨-, hsession⟩ := added_names .standard crowded
  obtain ⟨hadds, hkeeps⟩ := hsession (start (some crowded)) rfl
  refine ⟨by decide +kernel, hadds nofun rfl none rfl, hkeeps (by decide) _ ?_⟩
  simp [Edit.Renames]

end SigmaDesk.Session
