import SigmaDesk.Gate

/-!
# What the gate lets pass

A report without failures, taken apart: every check of a single value finds nothing, the names of
the selections differ, and the condition names selections only.
-/

namespace SigmaDesk.Gate

variable {c : Catalog} {r : Record} {slot : Slot} {fault : Option Fault} {f : ListField}
  {name : String} {siblings : List String}

theorem failureAt_eq_nil : failureAt slot fault = [] ↔ fault = none := by
  cases fault <;> simp [failureAt]

theorem selectionName_eq_none : Check.selectionName name siblings = none ↔
    Check.selectionName name [] = none ∧ name ∉ siblings := by
  unfold Check.selectionName
  by_cases hempty : name.isEmpty = true
  · simp [hempty]
  · by_cases hbad : (!Check.isSelectionName name || Text.allDigits name.toList ||
        Check.reservedNames.contains (Text.lower name)) = true
    · simp only [hempty, hbad, if_true, Bool.false_eq_true, if_false, reduceCtorEq, false_and]
    · simp only [hempty, hbad, Bool.false_eq_true, if_false]
      simp

theorem textFailures_eq_nil : textFailures c r = [] ↔ ∀ f, Check.text c f (r.text f) = none := by
  simp only [textFailures, List.flatMap_eq_nil_iff, failureAt_eq_nil]
  constructor
  · intro h f
    exact h f (by cases f <;> decide)
  · intro h f _
    exact h f

theorem itemFailures_eq_nil : itemFailures c r f = [] ↔
    ∀ v ∈ r.items f, Check.item c f v = none := by
  simp only [itemFailures, List.flatMap_eq_nil_iff, failureAt_eq_nil]
  constructor
  · intro h v hv
    obtain ⟨i, hi, rfl⟩ := List.getElem_of_mem hv
    exact h ((r.items f)[i], i) (List.mk_mem_zipIdx_iff_getElem?.mpr (List.getElem?_eq_getElem hi))
  · rintro h ⟨v, i⟩ hv
    exact h v (List.fst_mem_of_mem_zipIdx hv)

theorem extraFailures_eq_nil : extraFailures r = [] ↔
    ∀ e ∈ r.extras.entries, Check.extra e.1 e.2 = none := by
  simp [extraFailures, List.flatMap_eq_nil_iff, failureAt_eq_nil]

theorem nodup_iff_not_mem_eraseIdx {l : List String} :
    l.Nodup ↔ ∀ i x, l[i]? = some x → x ∉ l.eraseIdx i := by
  rw [List.Nodup, List.pairwise_iff_getElem]
  constructor
  · intro h i x hx hmem
    obtain ⟨j, hne, hj⟩ := List.mem_eraseIdx_iff_getElem?.mp hmem
    obtain ⟨hi, rfl⟩ := List.getElem?_eq_some_iff.mp hx
    obtain ⟨hj, heq⟩ := List.getElem?_eq_some_iff.mp hj
    rcases Nat.lt_or_gt_of_ne hne with hlt | hgt
    · exact h j i hj hi hlt heq
    · exact h i j hi hj hgt heq.symm
  · intro h i j hi hj hlt heq
    refine h i l[i] (List.getElem?_eq_getElem hi) (List.mem_eraseIdx_iff_getElem?.mpr ?_)
    exact ⟨j, Nat.ne_of_gt hlt, by rw [List.getElem?_eq_getElem hj, heq]⟩

structure CleanSelection (s : Selection) : Prop where
  name : Check.selectionName s.name [] = none
  field : Check.fieldKey s.fieldKey s.modifier = none
  value : Check.matcher s.matcher = none

theorem selectionFailuresAt_eq_nil {names : List String} {s : Selection} {i : Nat} :
    selectionFailuresAt names s i = [] ↔ CleanSelection s ∧ s.name ∉ names.eraseIdx i := by
  simp only [selectionFailuresAt, List.append_eq_nil_iff, failureAt_eq_nil]
  rw [selectionName_eq_none]
  constructor
  · rintro ⟨⟨⟨hname, hother⟩, hfield⟩, hvalue⟩
    exact ⟨⟨hname, hfield, hvalue⟩, hother⟩
  · rintro ⟨⟨hname, hfield, hvalue⟩, hother⟩
    exact ⟨⟨⟨hname, hother⟩, hfield⟩, hvalue⟩

theorem selectionFailures_eq_nil : selectionFailures r = [] ↔
    (∀ s ∈ r.selections, CleanSelection s) ∧ r.selectionNames.Nodup := by
  simp only [selectionFailures, List.flatMap_eq_nil_iff, selectionFailuresAt_eq_nil]
  rw [nodup_iff_not_mem_eraseIdx]
  constructor
  · intro h
    refine ⟨fun s hs => ?_, fun i x hx => ?_⟩
    · obtain ⟨i, hi, rfl⟩ := List.getElem_of_mem hs
      exact (h _ (List.mk_mem_zipIdx_iff_getElem?.mpr (List.getElem?_eq_getElem hi))).1
    · obtain ⟨s, hs, rfl⟩ := Option.map_eq_some_iff.mp ((List.getElem?_map ..).symm.trans hx)
      exact (h (s, i) (List.mk_mem_zipIdx_iff_getElem?.mpr hs)).2
  · rintro ⟨hclean, hnames⟩ ⟨s, i⟩ hs
    have hget := List.mk_mem_zipIdx_iff_getElem?.mp hs
    exact ⟨hclean s (List.fst_mem_of_mem_zipIdx hs), hnames i s.name
      ((List.getElem?_map ..).trans (congrArg (Option.map _) hget))⟩

theorem structuralFailures_eq_nil : structuralFailures r = [] ↔
    r.selections ≠ [] ∧ ∀ t ∈ r.condition.terms, t ∈ r.selectionNames := by
  have hdangling : danglingTerms r = [] ↔ ∀ t ∈ r.condition.terms, t ∈ r.selectionNames := by
    simp [danglingTerms, Condition.references, List.filter_eq_nil_iff]
  rw [structuralFailures, List.append_eq_nil_iff, List.map_eq_nil_iff, hdangling]
  cases r.selections <;> simp

structure Clean (c : Catalog) (r : Record) : Prop where
  text : ∀ f, Check.text c f (r.text f) = none
  item : ∀ f, ∀ v ∈ r.items f, Check.item c f v = none
  extra : ∀ e ∈ r.extras.entries, Check.extra e.1 e.2 = none
  selection : ∀ s ∈ r.selections, CleanSelection s
  distinct : r.selectionNames.Nodup
  condition : Check.condition r.condition = none
  some : r.selections ≠ []
  known : ∀ t ∈ r.condition.terms, t ∈ r.selectionNames

theorem submittable_iff : (evaluate c r).submittable = true ↔ Clean c r := by
  rw [Report.submittable, List.isEmpty_iff, evaluate]
  simp only [List.append_eq_nil_iff, textFailures_eq_nil, itemFailures_eq_nil,
    extraFailures_eq_nil, selectionFailures_eq_nil, conditionFailures, failureAt_eq_nil,
    structuralFailures_eq_nil]
  constructor
  · rintro ⟨⟨⟨⟨⟨⟨⟨htext, htags⟩, hreferences⟩, hfalse⟩, hextra⟩, hselection, hdistinct⟩,
      hcondition⟩, hsome, hknown⟩
    refine ⟨htext, fun f => ?_, hextra, hselection, hdistinct, hcondition, hsome, hknown⟩
    cases f with
    | tags => exact htags
    | references => exact hreferences
    | falsePositives => exact hfalse
  · rintro ⟨htext, hitem, hextra, hselection, hdistinct, hcondition, hsome, hknown⟩
    exact ⟨⟨⟨⟨⟨⟨⟨htext, hitem .tags⟩, hitem .references⟩, hitem .falsePositives⟩, hextra⟩,
      hselection, hdistinct⟩, hcondition⟩, hsome, hknown⟩

theorem checkField_of_submittable (h : (evaluate c r).submittable = true) (field : String) :
    checkField c r field = [] := by
  have hnone : (evaluate c r).failures = [] := List.isEmpty_iff.mp h
  rw [checkField, Report.errorsFor, hnone]
  rfl

end SigmaDesk.Gate
