import Mathlib.Data.List.InsertIdx
import SigmaDesk.Proofs.Edit
import SigmaDesk.Proofs.Gate
import SigmaDesk.Proofs.Occurrence

/-!
# Structural failures

A report ends with what is wrong with the structure of the rule. A rule that passes the gate loses
its structure by a renamed or removed selection only if the condition was left with the old name, or
nothing is left to select.
-/

namespace SigmaDesk.Gate

variable {c : Catalog} {r : Record} {slot : Slot} {fault : Option Fault} {s : Selection}
  {ss : List Selection} {i : Int} {n : Nat}

/-- What a check of a single value may find. -/
def Plain (fault : Option Fault) : Prop := ∀ x ∈ fault, x.structural = false

theorem plain_none : Plain none := nofun

theorem plain_ite {p : Prop} [Decidable p] {x : Fault} {rest : Option Fault}
    (hx : x.structural = false) (hrest : Plain rest) : Plain (if p then some x else rest) := by
  split
  · simpa [Plain] using hx
  · exact hrest

theorem plain_accept {p : Prop} [Decidable p] {x : Fault} (hx : x.structural = false) :
    Plain (if p then none else some x) := by
  split
  · exact plain_none
  · simpa [Plain] using hx

theorem plain_text (c : Catalog) (f : TextField) (v : String) : Plain (Check.text c f v) := by
  cases f with
  | description => exact plain_accept rfl
  | _ => exact plain_ite rfl (plain_accept rfl)

theorem plain_item (c : Catalog) (f : ListField) (v : String) : Plain (Check.item c f v) := by
  cases f with
  | tags => exact plain_ite rfl (plain_accept rfl)
  | _ => exact plain_accept rfl

theorem plain_extra (key v : String) : Plain (Check.extra key v) :=
  plain_ite rfl (plain_ite rfl (plain_accept rfl))

theorem plain_selectionName (v : String) (siblings : List String) :
    Plain (Check.selectionName v siblings) :=
  plain_ite rfl (plain_ite rfl (plain_ite rfl plain_none))

theorem plain_fieldKey (v : String) (modifier : Option String) :
    Plain (Check.fieldKey v modifier) := by
  refine plain_ite rfl (plain_ite rfl ?_)
  cases modifier with
  | none => exact plain_none
  | some m => exact plain_accept rfl

theorem plain_matcher (m : Matcher) : Plain (Check.matcher m) :=
  plain_ite rfl (plain_accept rfl)

theorem plain_condition (condition : Condition) : Plain (Check.condition condition) :=
  plain_ite rfl plain_none

theorem structural_of_mem_failureAt (h : Plain fault) {f : Failure} (hf : f ∈ failureAt slot fault) :
    f.structural = false := by
  obtain ⟨x, hx, rfl⟩ : ∃ x, fault = some x ∧ ⟨slot, x⟩ = f := by simpa [failureAt] using hf
  exact h x hx

def valueFailures (c : Catalog) (r : Record) : List Failure :=
  textFailures c r ++ itemFailures c r .tags ++ itemFailures c r .references ++
    itemFailures c r .falsePositives ++ extraFailures r ++ selectionFailures r ++
    conditionFailures r

theorem failures_evaluate (c : Catalog) (r : Record) :
    (evaluate c r).failures = valueFailures c r ++ structuralFailures r := rfl

theorem structural_of_mem_itemFailures {f : Failure} {l : ListField}
    (h : f ∈ itemFailures c r l) : f.structural = false := by
  obtain ⟨_, -, hf⟩ := List.mem_flatMap.mp h
  exact structural_of_mem_failureAt (plain_item c _ _) hf

theorem structural_of_mem_valueFailures {f : Failure} (h : f ∈ valueFailures c r) :
    f.structural = false := by
  simp only [valueFailures, List.mem_append] at h
  rcases h with (((((htext | htags) | hreferences) | hfalse) | hextra) | hselection) | hcondition
  · obtain ⟨g, -, hf⟩ := List.mem_flatMap.mp htext
    exact structural_of_mem_failureAt (plain_text c _ _) hf
  · exact structural_of_mem_itemFailures htags
  · exact structural_of_mem_itemFailures hreferences
  · exact structural_of_mem_itemFailures hfalse
  · obtain ⟨_, -, hf⟩ := List.mem_flatMap.mp hextra
    exact structural_of_mem_failureAt (plain_extra _ _) hf
  · obtain ⟨_, -, hf⟩ := List.mem_flatMap.mp hselection
    simp only [selectionFailuresAt, List.mem_append] at hf
    rcases hf with (hname | hkey) | hvalue
    · exact structural_of_mem_failureAt (plain_selectionName _ _) hname
    · exact structural_of_mem_failureAt (plain_fieldKey _ _) hkey
    · exact structural_of_mem_failureAt (plain_matcher _) hvalue
  · exact structural_of_mem_failureAt (plain_condition _) hcondition

theorem structural_of_mem_structuralFailures {f : Failure} (h : f ∈ structuralFailures r) :
    f.structural = true := by
  rcases List.mem_append.mp h with hnone | hterm
  · split at hnone
    · rw [List.mem_singleton.mp hnone]
      rfl
    · cases hnone
  · obtain ⟨t, -, rfl⟩ := List.mem_map.mp hterm
    rfl

theorem structural_evaluate (c : Catalog) (r : Record) :
    (evaluate c r).structural = structuralFailures r := by
  have hvalue : (valueFailures c r).filter (·.structural) = [] :=
    List.filter_eq_nil_iff.mpr fun f hf => by simp [structural_of_mem_valueFailures hf]
  have hstructural : (structuralFailures r).filter (·.structural) = structuralFailures r :=
    List.filter_eq_self.mpr fun f hf => structural_of_mem_structuralFailures hf
  rw [Report.structural, failures_evaluate, List.filter_append, hvalue, hstructural,
    List.nil_append]

theorem firstOccurrences_danglingTerms (r : Record) :
    FirstOccurrences r.condition.terms (· ∉ r.selectionNames) (danglingTerms r) := by
  have h := firstOccurrences_filter r.condition.terms (!r.selectionNames.contains ·)
  simpa [danglingTerms, Condition.references] using h

theorem shown_structuralFailures (r : Record) :
    (structuralFailures r).map (fun f => (f.field, f.message)) =
      (if r.selections = [] then [("selections", "At least one selection is required.")] else []) ++
        (danglingTerms r).map fun t =>
          ("condition", "Condition references unknown selection '" ++ t ++ "'.") := by
  have hshown : (fun f : Failure => (f.field, f.message)) ∘
      (fun t => (⟨.condition, .unknownSelection t⟩ : Failure)) =
      fun t => ("condition", "Condition references unknown selection '" ++ t ++ "'.") := rfl
  rw [structuralFailures, List.map_append, List.map_map, hshown]
  cases r.selections <;> rfl

/-- An accepted record with other selections, which have all names but one. Its structure fails if
none is left, or if the condition mentions the name that is gone. -/
theorem structural_of_lost (h : Clean c r) {old : String}
    (hkept : ∀ t ∈ r.selectionNames, t ≠ old → t ∈ ss.map (·.name)) :
    (evaluate c { r with selections := ss }).structural ≠ [] ↔
      (old ∈ r.condition.terms ∧ old ∉ ss.map (·.name)) ∨ ss = [] := by
  rw [structural_evaluate, Ne, structuralFailures_eq_nil]
  constructor
  · intro hfails
    by_cases hnone : ss = []
    · exact .inr hnone
    · obtain ⟨t, hterm, hlost⟩ : ∃ t ∈ r.condition.terms, t ∉ ss.map (·.name) := by
        simpa [hnone, Record.selectionNames] using hfails
      have hold : t = old := by
        by_contra hne
        exact hlost (hkept t (h.known t hterm) hne)
      exact .inl (hold ▸ ⟨hterm, hlost⟩)
  · rintro (⟨hterm, hlost⟩ | hnone) ⟨hsome, hknown⟩
    · exact hlost (hknown old hterm)
    · exact hsome hnone

theorem names_renamed (hs : ss[n]? = some s) (name : String) :
    (ss.modify n ({ · with name })).map (·.name) = (ss.map (·.name)).set n name := by
  simp [List.modify_eq_set_getElem?, hs, List.map_set]

theorem mem_set_of_ne {xs : List String} {old new t : String} (ht : t ∈ xs) (hold : xs[n]? = some old)
    (hne : t ≠ old) : t ∈ xs.set n new := by
  obtain ⟨j, hj⟩ := List.mem_iff_getElem?.mp ht
  have hnj : n ≠ j := by
    rintro rfl
    exact hne (Option.some.inj (hj.symm.trans hold))
  exact List.mem_iff_getElem?.mpr ⟨j, by rw [List.getElem?_set_ne hnj, hj]⟩

theorem mem_eraseIdx_of_ne {xs : List String} {old t : String} (ht : t ∈ xs) (hold : xs[n]? = some old)
    (hne : t ≠ old) : t ∈ xs.eraseIdx n := by
  obtain ⟨j, hj⟩ := List.mem_iff_getElem?.mp ht
  refine List.mem_eraseIdx_iff_getElem?.mpr ⟨j, ?_, hj⟩
  rintro rfl
  exact hne (Option.some.inj (hj.symm.trans hold))

theorem structural_of_renamed (h : Clean c r) (hi : place? r.selections.length i = some n)
    (hs : r.selections[n]? = some s) (name : String) :
    ∃ r', (Edit.renameSelection i name).apply r = .ok r' ∧
      ((evaluate c r').structural ≠ [] ↔
        (s.name ∈ r.condition.terms ∧ s.name ∉ r'.selectionNames) ∨ r'.selections = []) := by
  refine ⟨{ r with selections := r.selections.modify n ({ · with name }) }, ?_, ?_⟩
  · simp [Edit.apply, Record.modifySelection, modifyAt, hi]
  · refine structural_of_lost h fun t ht hne => ?_
    rw [names_renamed hs]
    exact mem_set_of_ne ht (by simp [hs]) hne

theorem structural_of_removed (h : Clean c r) (hi : place? r.selections.length i = some n)
    (hs : r.selections[n]? = some s) :
    ∃ r', (Edit.removeSelection i).apply r = .ok r' ∧
      ((evaluate c r').structural ≠ [] ↔
        (s.name ∈ r.condition.terms ∧ s.name ∉ r'.selectionNames) ∨ r'.selections = []) := by
  refine ⟨{ r with selections := r.selections.eraseIdx n }, ?_, ?_⟩
  · simp [Edit.apply, removeAt, hi]
  · refine structural_of_lost h fun t ht hne => ?_
    rw [← List.eraseIdx_map]
    exact mem_eraseIdx_of_ne ht (by simp [hs]) hne

/-- A report is the failures of single values, and then those of the structure: that there is no
selection, and each term of the condition that names none, once and in the order of the condition.
A rule that passed the gate comes to fail by its structure, as a selection is renamed or removed,
exactly if the condition mentions a name that is gone or no selection is left. -/
theorem structural_failures (c : Catalog) (r : Record) :
    (∃ fs ts, (evaluate c r).failures = fs ++ (evaluate c r).structural ∧
      (∀ f ∈ fs, f.structural = false) ∧
      FirstOccurrences r.condition.terms (· ∉ r.selectionNames) ts ∧
      (evaluate c r).structural.map (fun f => (f.field, f.message)) =
        (if r.selections = [] then [("selections", "At least one selection is required.")]
          else []) ++
        ts.map fun t => ("condition", "Condition references unknown selection '" ++ t ++ "'.")) ∧
    ((evaluate c r).submittable = true → ∀ (i : Int) (n : Nat) (s : Selection),
      place? r.selections.length i = some n → r.selections[n]? = some s →
      ∀ e : Edit, (e = .removeSelection i ∨ ∃ name, e = .renameSelection i name) →
        ∃ r', e.apply r = .ok r' ∧
          ((evaluate c r').structural ≠ [] ↔
            (s.name ∈ r.condition.terms ∧ s.name ∉ r'.selectionNames) ∨ r'.selections = [])) := by
  constructor
  · refine ⟨valueFailures c r, danglingTerms r, ?_, fun f => structural_of_mem_valueFailures,
      firstOccurrences_danglingTerms r, ?_⟩
    · rw [structural_evaluate, failures_evaluate]
    · rw [structural_evaluate, shown_structuralFailures]
  · intro haccepted i n s hi hs e he
    have hclean := submittable_iff.mp haccepted
    rcases he with rfl | ⟨name, rfl⟩
    · exact structural_of_removed hclean hi hs
    · exact structural_of_renamed hclean hi hs name

def pair : Record where
  name := "Shell start"
  author := "soc"
  logType := "windows"
  level := "high"
  status := "test"
  selections := [⟨"a", "Image", none, .one "x"⟩, ⟨"b", "User", none, .many ["y", "z"]⟩]
  condition := ⟨["a", "b", "a"]⟩

theorem structural_failures_renamed :
    (evaluate .standard pair).submittable = true ∧
      ∃ r', (Edit.renameSelection (-2) "b").apply pair = .ok r' ∧
        (evaluate .standard r').structural ≠ [] := by
  have haccepted : (evaluate .standard pair).submittable = true := by decide +kernel
  obtain ⟨r', happly, hfails⟩ := (structural_failures .standard pair).2 haccepted (-2) 0 _
    (by decide) rfl _ (.inr ⟨"b", rfl⟩)
  refine ⟨haccepted, r', happly, hfails.mpr (.inl ?_)⟩
  cases happly
  decide

end SigmaDesk.Gate
