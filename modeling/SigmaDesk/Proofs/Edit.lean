import SigmaDesk.Edit

/-!
# What an edit changes

An edit that succeeds writes one part of the record and leaves the identifier and the pass-through
keys alone. One that fails is at a position that is not there, asks for no style, takes a taken
name, or has no name to go by.
-/

namespace SigmaDesk.Record

variable {r r' : Record} {e : Edit}

/-- A record and what one edit can make of it. -/
inductive Edited (r : Record) : Record → Prop
  | text (f : TextField) (value : String) : Edited r (r.setText f value)
  | items (f : ListField) (values : List String) : Edited r (r.setItems f values)
  | selections (selections : List Selection) : Edited r { r with selections }
  | condition (condition : Condition) : Edited r { r with condition }

theorem edited_of_modifySelection {i : Int} {f : Selection → Selection}
    (h : r.modifySelection i f = .ok r') : Edited r r' := by
  unfold modifySelection at h
  split at h
  · cases h
    exact .selections _
  · cases h

theorem edited_of_apply (h : e.apply r = .ok r') : Edited r r' := by
  cases e with
  | setText f value =>
    cases h
    exact .text f value
  | addItem f value =>
    cases h
    exact .items f _
  | setItem f i value =>
    rw [Edit.apply] at h
    split at h
    · cases h
      exact .items f _
    · cases h
  | removeItem f i =>
    rw [Edit.apply] at h
    split at h
    · cases h
      exact .items f _
    · cases h
  | addSelection name =>
    rw [Edit.apply] at h
    split at h
    · cases h
    · cases h
      exact .selections _
  | renameSelection i name => exact edited_of_modifySelection h
  | setSelectionKey i key => exact edited_of_modifySelection h
  | setSelectionValue i value => exact edited_of_modifySelection h
  | setSelectionList i values => exact edited_of_modifySelection h
  | setMatchStyle i style =>
    rw [Edit.apply] at h
    split at h
    · cases h
    · cases h
    · exact edited_of_modifySelection h
  | removeSelection i =>
    rw [Edit.apply] at h
    split at h
    · cases h
      exact .selections _
    · cases h
  | addConditionTerm name =>
    rw [Edit.apply] at h
    split at h
    · cases h
      exact .condition _
    · cases h
  | removeConditionTerm i =>
    rw [Edit.apply] at h
    split at h
    · cases h
      exact .condition _
    · cases h

theorem Edited.id (h : Edited r r') : r'.id = r.id := by
  cases h with
  | text f value => cases f <;> rfl
  | items f values => cases f <;> rfl
  | selections => rfl
  | condition => rfl

theorem modifySelection_eq_ok_iff {i : Int} {f : Selection → Selection} :
    r.modifySelection i f = .ok r' ↔ ∃ n, place? r.selections.length i = some n ∧
      r' = { r with selections := r.selections.modify n f } := by
  unfold modifySelection modifyAt
  cases place? r.selections.length i with
  | none => simp
  | some n => simp [eq_comm]

theorem names_modify (ss : List Selection) (n : Nat) {f : Selection → Selection}
    (hf : ∀ s, (f s).name = s.name) : (ss.modify n f).map (·.name) = ss.map (·.name) := by
  apply List.ext_getElem?
  intro i
  simp only [List.getElem?_map, List.getElem?_modify]
  cases ss[i]? with
  | none => rfl
  | some s => by_cases hi : n = i <;> simp [hi, hf]

end SigmaDesk.Record

namespace SigmaDesk

variable {r r' : Record} {e : Edit} {err : EditError} {i : Int} {n : Nat} {fault : PositionError}

theorem place?_eq_none_iff : place? n i = none ↔ i < -n ∨ n ≤ i := by
  cases i with
  | ofNat m =>
    simp only [place?, Int.ofNat_eq_natCast, ite_eq_right_iff, reduceCtorEq, imp_false]
    omega
  | negSucc m =>
    simp only [place?, ite_eq_right_iff, reduceCtorEq, imp_false]
    omega

/-- The position that an edit needs, how long the list is that it is in, and what is said if it is
not there. -/
def Edit.position? (r : Record) : Edit → Option (Int × Nat × PositionError)
  | .setItem f i _ | .removeItem f i => some (i, (r.items f).length, .write)
  | .renameSelection i _ | .setSelectionKey i _ | .setMatchStyle i _ | .setSelectionValue i _
  | .setSelectionList i _ => some (i, r.selections.length, .read)
  | .removeSelection i => some (i, r.selections.length, .write)
  | .removeConditionTerm i =>
    some (i, r.condition.terms.length, if r.condition.terms.isEmpty then .popEmpty else .pop)
  | .setText _ _ | .addItem _ _ | .addSelection _ | .addConditionTerm _ => none

namespace Edit

/-- Why an edit of a record cannot be done. -/
inductive Impossible (r : Record) : Edit → EditError → Prop
  | position {e : Edit} {i : Int} {n : Nat} {fault : PositionError}
    (h : e.position? r = some (i, n, fault)) (hi : i < -n ∨ n ≤ i) :
    Impossible r e (.position (fault.atPlace i))
  | style {i : Int} {style : Value} {err : SelectionError}
    (hi : ¬(i < -r.selections.length ∨ r.selections.length ≤ i))
    (h : Style.ofValue style = .error err) :
    Impossible r (.setMatchStyle i style) (.selection err)
  | taken {name : Option String} (h : newName r name ∈ r.selectionNames) :
    Impossible r (.addSelection name) (.selectionExists (newName r name))
  | noName (h : r.selections = []) : Impossible r (.addConditionTerm none) .noSelection

theorem isSome_selection? (r : Record) (name : String) :
    (r.selection? name).isSome = true ↔ name ∈ r.selectionNames := by
  simp [Record.selection?, Record.selectionNames]

theorem newTerm?_eq_none_iff {name : Option String} :
    newTerm? r name = none ↔ name = none ∧ r.selections = [] := by
  cases name <;> simp [newTerm?]

theorem apply_of_position (h : e.position? r = some (i, n, fault)) (hi : i < -n ∨ n ≤ i) :
    e.apply r = .error (.position (fault.atPlace i)) := by
  have hplace := place?_eq_none_iff.mpr hi
  cases e <;> cases h <;>
    simp [apply, Record.modifySelection, modifyAt, removeAt, Condition.remove, hplace]

theorem impossible_of_apply (h : e.apply r = .error err) : e.Impossible r err := by
  cases hpos : e.position? r with
  | some p =>
    obtain ⟨i, n, fault⟩ := p
    by_cases hi : i < -n ∨ n ≤ i
    · rw [apply_of_position hpos hi] at h
      cases h
      exact .position hpos hi
    · -- The position is there, so it can only be the style.
      obtain ⟨m, hplace⟩ := Option.ne_none_iff_exists'.mp (mt place?_eq_none_iff.mp hi)
      cases e with
      | setMatchStyle i style =>
        cases hpos
        cases hstyle : Style.ofValue style with
        | ok s => simp [apply, Record.modifySelection, modifyAt, hplace, hstyle] at h
        | error fault =>
          simp only [apply, hplace, hstyle] at h
          cases h
          exact .style hi hstyle
      | _ =>
        cases hpos <;>
          simp [apply, Record.modifySelection, modifyAt, removeAt, Condition.remove, hplace] at h
  | none =>
    cases e with
    | setText f value => cases h
    | addItem f value => cases h
    | addSelection name =>
      simp only [apply] at h
      split at h
      · rename_i htaken
        cases h
        exact .taken ((isSome_selection? r _).mp htaken)
      · cases h
    | addConditionTerm name =>
      simp only [apply] at h
      split at h
      · cases h
      · rename_i hname
        cases h
        obtain ⟨rfl, hnone⟩ := newTerm?_eq_none_iff.mp hname
        exact .noName hnone
    | _ => cases hpos

/-- An edit cannot be done for these reasons only, and for each of them it is not. -/
theorem apply_eq_error_iff : e.apply r = .error err ↔ e.Impossible r err := by
  constructor
  · exact impossible_of_apply
  · intro h
    cases h with
    | position hpos hi => exact apply_of_position hpos hi
    | style hi hstyle =>
      obtain ⟨n, hplace⟩ := Option.ne_none_iff_exists'.mp (mt place?_eq_none_iff.mp hi)
      simp [apply, hplace, hstyle]
    | taken htaken => simp [apply, (isSome_selection? r _).mpr htaken]
    | noName hnone => simp [apply, newTerm?, hnone]

end Edit

end SigmaDesk
