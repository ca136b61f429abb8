import SigmaDesk.Proofs.Gate.Frame
import SigmaDesk.Proofs.Session.Run

/-!
# Changes of style

A single text is a list of one in list style, and comes back when the style is changed again; the
gate looks at nothing that changes. Of a list, only the first item outlasts a change to value style.
-/

namespace SigmaDesk

namespace Matcher

variable {text : String} {m : Matcher}

/-- What changes of style can make of a single text: itself, or the list of it. -/
inductive ShapeOf (text : String) : Matcher → Prop
  | one : ShapeOf text (.one text)
  | many : ShapeOf text (.many (itemsOf text))

theorem headD_itemsOf (text : String) : (itemsOf text).headD "" = text := by
  unfold itemsOf
  split
  · rename_i hempty
    exact (String.isEmpty_iff.mp hempty).symm
  · rfl

theorem ShapeOf.switchTo (h : ShapeOf text m) (style : Style) :
    ShapeOf text (m.switchTo style) := by
  cases h with
  | one =>
    cases style with
    | value => exact .one
    | list => exact .many
  | many =>
    cases style with
    | value =>
      rw [Matcher.switchTo, headD_itemsOf]
      exact .one
    | list => exact .many

theorem ShapeOf.values (h : ShapeOf text m) : m.values = itemsOf text := by cases h <;> rfl

theorem ShapeOf.isComplete (h : ShapeOf text m) : m.isComplete = !text.isEmpty := by
  cases h with
  | one => rfl
  | many =>
    rw [Matcher.isComplete, itemsOf]
    cases hempty : text.isEmpty <;> simp [hempty]

theorem ShapeOf.eq_one (h : ShapeOf text m) (hstyle : m.style = .value) : m = .one text := by
  cases h with
  | one => rfl
  | many => cases hstyle

theorem ShapeOf.check (h : ShapeOf text m) : Check.matcher m = Check.matcher (.one text) := by
  rw [Check.matcher, Check.matcher, h.isComplete, h.values]
  rfl

theorem many_iff : (∃ items, m = .many items) ↔ m.style = .list := by
  cases m <;> simp [style]

def switched (m : Matcher) (styles : List Style) : Matcher :=
  styles.foldl (fun m style => m.switchTo style) m

theorem switched_concat (m : Matcher) (styles : List Style) (style : Style) :
    m.switched (styles ++ [style]) = (m.switched styles).switchTo style :=
  List.foldl_concat ..

theorem style_switched (m : Matcher) (styles : List Style) :
    (m.switched styles).style = styles.getLast?.getD m.style := by
  cases styles using List.reverseRecOn with
  | nil => rfl
  | append_singleton styles style => simp [switched_concat]

theorem ShapeOf.switched (h : ShapeOf text m) (styles : List Style) :
    ShapeOf text (m.switched styles) := by
  induction styles generalizing m with
  | nil => exact h
  | cons style styles ih => exact ih (h.switchTo style)

theorem switched_many {styles : List Style} (items : List String) (h : .value ∉ styles) :
    (many items).switched styles = many items := by
  induction styles with
  | nil => rfl
  | cons style styles ih =>
    obtain ⟨hfirst, hrest⟩ := not_or.mp (mt List.mem_cons.mpr h)
    cases style with
    | value => exact absurd rfl hfirst
    | list => exact ih hrest

/-- From the first change to value style on, a list is its first item, in one of its shapes. -/
theorem shapeOf_switched_many {styles : List Style} (items : List String) (h : .value ∈ styles) :
    ShapeOf (items.headD "") ((many items).switched styles) := by
  induction styles with
  | nil => cases h
  | cons style styles ih =>
    cases style with
    | value => exact ShapeOf.one.switched styles
    | list => exact ih ((List.mem_cons.mp h).resolve_left nofun)

end Matcher

namespace Selection

variable {s t : Selection}

/-- The selection after its style has been asked for. What is no style is refused, and then the
selection stays as it is. -/
def restyle (s : Selection) (asked : Value) : Selection :=
  match Style.ofValue asked with
  | .ok style => s.switchStyle style
  | .error _ => s

def restyled (s : Selection) (asked : List Value) : Selection := asked.foldl restyle s

def stylesOf (asked : List Value) : List Style :=
  asked.filterMap fun v => (Style.ofValue v).toOption

theorem restyled_eq (s : Selection) (asked : List Value) :
    s.restyled asked = { s with matcher := s.matcher.switched (stylesOf asked) } := by
  induction asked generalizing s with
  | nil => rfl
  | cons v asked ih =>
    have hrun : s.restyled (v :: asked) = (s.restyle v).restyled asked := rfl
    rw [hrun, ih, restyle, stylesOf, stylesOf, List.filterMap_cons]
    cases Style.ofValue v <;> rfl

structure Restyled (s : Selection) (styles : List Style) (t : Selection) : Prop where
  others : t = { s with matcher := t.matcher }
  style : t.style = styles.getLast?.getD s.style
  shape : (∃ items, t.matcher = .many items) ↔ t.style = .list
  fromValue : s.style = .value →
    t.values = s.values ∧ t.isComplete = s.isComplete ∧ (t.style = .value → t = s)
  fromList : ∀ items, s.matcher = .many items → (.value ∉ styles → t = s) ∧
    (.value ∈ styles → t.style = .value → t.matcher = .one (items.headD ""))

theorem matcher_of_style (h : s.style = .value) : ∃ text, s.matcher = .one text := by
  cases hm : s.matcher with
  | one text => exact ⟨text, rfl⟩
  | many items => simp [style, Matcher.style, hm] at h

theorem restyled_spec (s : Selection) (asked : List Value) :
    Restyled s (stylesOf asked) (s.restyled asked) := by
  rw [restyled_eq]
  refine ⟨rfl, Matcher.style_switched _ _, Matcher.many_iff, fun hstyle => ?_, fun items hm => ?_⟩
  · obtain ⟨text, htext⟩ := matcher_of_style hstyle
    have hstart : Matcher.ShapeOf text s.matcher := htext ▸ .one
    have hshape := hstart.switched (stylesOf asked)
    refine ⟨hshape.values.trans hstart.values.symm, ?_, fun hback => ?_⟩
    · rw [isComplete, isComplete, hshape.isComplete, hstart.isComplete]
    · rw [hshape.eq_one hback, ← htext]
  · rw [hm]
    refine ⟨fun hnone => ?_, fun hsome hback => ?_⟩
    · rw [Matcher.switched_many items hnone, ← hm]
    · exact (Matcher.shapeOf_switched_many items hsome).eq_one hback

/-- A selection that shows its single text in one of its shapes, or any selection as it was. -/
inductive Alike (s : Selection) : Selection → Prop
  | same : Alike s s
  | shaped {text : String} {m : Matcher} (htext : s.matcher = .one text)
    (hm : Matcher.ShapeOf text m) : Alike s { s with matcher := m }

theorem Alike.switchStyle (h : Alike s t) (hs : s.style = .value) (style : Style) :
    Alike s (t.switchStyle style) := by
  obtain ⟨text, htext⟩ := matcher_of_style hs
  cases h with
  | same => exact .shaped htext ((htext ▸ Matcher.ShapeOf.one).switchTo style)
  | shaped htext hm => exact .shaped htext (hm.switchTo style)

theorem Alike.name (h : Alike s t) : t.name = s.name := by cases h <;> rfl

theorem Alike.failures (h : Alike s t) (names : List String) (n : Nat) :
    Gate.selectionFailuresAt names t n = Gate.selectionFailuresAt names s n := by
  cases h with
  | same => rfl
  | shaped htext hm => simp only [Gate.selectionFailuresAt, hm.check, htext]

end Selection

namespace Record

variable {r r' r'' : Record} {i : Int} {asked : Value}

structure Alike (r r' : Record) : Prop where
  others : r' = { r with selections := r'.selections }
  length : r'.selections.length = r.selections.length
  each : ∀ (n : Nat) (s t : Selection), r.selections[n]? = some s → r'.selections[n]? = some t →
    s.Alike t

theorem Alike.refl (r : Record) : Alike r r where
  others := rfl
  length := rfl
  each n s t hs ht := by
    obtain rfl := Option.some.inj (hs.symm.trans ht)
    exact .same

theorem Alike.setMatchStyle (h : Alike r r')
    (hi : ∀ n ∈ place? r.selections.length i, ∀ s ∈ r.selections[n]?, s.style = .value)
    (he : (Edit.setMatchStyle i asked).apply r' = .ok r'') : Alike r r'' := by
  rw [Edit.apply] at he
  split at he
  · cases he
  · cases he
  · rename_i style _ _
    obtain ⟨n, hn, rfl⟩ := modifySelection_eq_ok_iff.mp he
    rw [h.length] at hn
    refine ⟨?_, ?_, fun k s t hs ht => ?_⟩
    · rw [h.others]
    · rw [List.length_modify, h.length]
    · rw [List.getElem?_modify] at ht
      obtain ⟨u, hu, rfl⟩ := Option.map_eq_some_iff.mp ht
      have halike := h.each k s u hs hu
      by_cases hk : n = k
      · subst hk
        simpa using halike.switchStyle (hi n hn s hs) style
      · simpa [hk] using halike

theorem Alike.names (h : Alike r r') : r'.selectionNames = r.selectionNames := by
  apply List.ext_getElem
  · simp [selectionNames, h.length]
  · intro n hn' hn
    simp only [selectionNames, List.length_map] at hn hn'
    simpa [selectionNames] using
      (h.each n _ _ (List.getElem?_eq_getElem hn) (List.getElem?_eq_getElem hn')).name

theorem Alike.evaluate (h : Alike r r') (c : Catalog) :
    Gate.evaluate c r' = Gate.evaluate c r := by
  have hselections : Gate.selectionFailures r' = Gate.selectionFailures r := by
    refine Gate.flatMap_zipIdx_congr h.length fun n t s ht hs => ?_
    rw [h.names]
    exact (h.each n s t hs ht).failures _ n
  have hempty : r'.selections.isEmpty = r.selections.isEmpty := by
    rw [Bool.eq_iff_iff, List.isEmpty_iff_length_eq_zero, List.isEmpty_iff_length_eq_zero, h.length]
  have hstructure : Gate.structuralFailures r' = Gate.structuralFailures r := by
    rw [Gate.structuralFailures, Gate.structuralFailures, Gate.danglingTerms, Gate.danglingTerms,
      h.names, hempty, h.others]
  rw [Gate.evaluate, Gate.evaluate, hselections, hstructure, h.others]
  rfl

end Record

namespace Session

variable {c : Catalog} {s : Session} {r : Record}

theorem record_edit (c : Catalog) (s : Session) (e : Edit) :
    (s.edit c e).2.record = s.record ∨ e.apply s.record = .ok (s.edit c e).2.record := by
  unfold Session.edit
  split
  · exact .inl rfl
  · split
    · exact .inl rfl
    · split
      · exact .inl rfl
      · rename_i h
        exact .inr h

def styleCalls (asked : List (Int × Value)) : List Action :=
  asked.map fun e => .op (.edit (.setMatchStyle e.1 e.2))

theorem alike_run (h : r.Alike s.record) {asked : List (Int × Value)}
    (ha : ∀ e ∈ asked, ∀ n ∈ place? r.selections.length e.1, ∀ sel ∈ r.selections[n]?,
      sel.style = .value) :
    r.Alike (s.run c (styleCalls asked)).record := by
  induction asked generalizing s with
  | nil => exact h
  | cons e asked ih =>
    obtain ⟨hfirst, hrest⟩ := List.forall_mem_cons.mp ha
    refine ih ?_ hrest
    rcases record_edit c s (.setMatchStyle e.1 e.2) with hsame | hedited
    · exact hsame ▸ h
    · exact h.setMatchStyle hfirst hedited

/-- However often the style of a selection is asked for, its value is a list exactly in list style.
A single text comes back in value style, and as a list it is as complete. A list is cut to its first
item when it is first changed to value style. The gate finds the same after any changes of style of
selections that were in value style. -/
theorem restyled_keeps :
    (∀ (s : Selection) (asked : List Value),
      Selection.Restyled s (Selection.stylesOf asked) (s.restyled asked)) ∧
    ∀ (c : Catalog) (s : Session) (asked : List (Int × Value)),
      (∀ e ∈ asked, ∀ n ∈ place? s.record.selections.length e.1,
        ∀ sel ∈ s.record.selections[n]?, sel.style = .value) →
      (s.run c (styleCalls asked)).report c = s.report c :=
  ⟨Selection.restyled_spec, fun c s _ ha => (alike_run (.refl s.record) ha).evaluate c⟩

def twoStyles : Session :=
  start (some { selections := [{ name := "sel", fieldKey := "Image", matcher := .one "x" },
    { name := "other", matcher := .many ["", "y"] }] })

def backAndForth : List (Int × Value) :=
  [(0, .text "list"), (-2, .text "set"), (0, .text "list"), (-2, .text "value"), (7, .text "list")]

theorem restyled_keeps_backAndForth :
    (∀ e ∈ backAndForth, ∀ n ∈ place? twoStyles.record.selections.length e.1,
      ∀ sel ∈ twoStyles.record.selections[n]?, sel.style = .value) ∧
    (twoStyles.run .standard (styleCalls backAndForth)).report .standard =
      twoStyles.report .standard ∧
    ∀ sel ∈ twoStyles.record.selections, Selection.Restyled sel [.list, .list, .value, .list]
      (sel.restyled (backAndForth.map (·.2))) := by
  have hvalue : ∀ e ∈ backAndForth, ∀ n ∈ place? twoStyles.record.selections.length e.1,
      ∀ sel ∈ twoStyles.record.selections[n]?, sel.style = .value := by decide
  have hstyles : Selection.stylesOf (backAndForth.map (·.2)) = [.list, .list, .value, .list] := by
    decide
  refine ⟨hvalue, restyled_keeps.2 .standard twoStyles backAndForth hvalue, fun sel _ => ?_⟩
  rw [← hstyles]
  exact restyled_keeps.1 sel (backAndForth.map (·.2))

end Session

end SigmaDesk
