import SigmaDesk.Proofs.Edit
import SigmaDesk.Proofs.Gate.Label

/-!
# Edits of one slot

Every check looks at the values of its own slot, but that the name of a selection is compared with
the names of the others and with the terms of the condition. So an edit of one slot moves few
failures, and leaves the others as they are and in the same order.
-/

namespace SigmaDesk

/-- One slot of a record, with what it is given. -/
inductive SlotEdit
  | text (f : TextField) (value : String)
  | item (f : ListField) (i : Nat) (value : String)
  | extra (key value : String)
  | selectionName (i : Nat) (name : String)
  | fieldKey (i : Nat) (fieldKey : String) (modifier : Option String)
  | fieldValue (i : Nat) (matcher : Matcher)

namespace SlotEdit

def slot : SlotEdit → Slot
  | .text f _ => .text f
  | .item f i _ => .item f i
  | .extra key _ => .extra key
  | .selectionName i _ => .selectionName i
  | .fieldKey i _ _ => .fieldKey i
  | .fieldValue i _ => .fieldValue i

/-- The record after an edit. A level is taken as it is given, in any letter case. -/
def apply (r : Record) : SlotEdit → Record
  | .text .level value => { r with level := value }
  | .text f value => r.setText f value
  | .item f i value => r.setItems f ((r.items f).modify i fun _ => value)
  | .extra key value => { r with extras := r.extras.insert key value }
  | .selectionName i name => { r with selections := r.selections.modify i ({ · with name }) }
  | .fieldKey i key modifier =>
    { r with selections := r.selections.modify i ({ · with fieldKey := key, modifier }) }
  | .fieldValue i matcher => { r with selections := r.selections.modify i ({ · with matcher }) }

/-- The fields whose failures an edit may move. -/
def Moves : SlotEdit → String → Prop
  | .selectionName _ _, field =>
    (∃ j, field = (Slot.selectionName j).label) ∨ field = Slot.condition.label
  | e, field => field = e.slot.label

theorem selectionName_label_iff {field : String} :
    (∃ j, field = (Slot.selectionName j).label) ↔
      field = (Slot.selectionName (Slot.numberIn field)).label := by
  constructor
  · rintro ⟨j, rfl⟩
    rw [Slot.numberIn_label (.selectionName j) rfl]
  · exact fun h => ⟨_, h⟩

instance (e : SlotEdit) (field : String) : Decidable (e.Moves field) :=
  match e with
  | .selectionName _ _ => decidable_of_iff' _ (or_congr_left selectionName_label_iff)
  | .text f _ => inferInstanceAs (Decidable (field = (Slot.text f).label))
  | .item f i _ => inferInstanceAs (Decidable (field = (Slot.item f i).label))
  | .extra key _ => inferInstanceAs (Decidable (field = (Slot.extra key).label))
  | .fieldKey i _ _ => inferInstanceAs (Decidable (field = (Slot.fieldKey i).label))
  | .fieldValue i _ => inferInstanceAs (Decidable (field = (Slot.fieldValue i).label))

def movesSlot : SlotEdit → Slot → Bool
  | .selectionName _ _, .selectionName _ => true
  | .selectionName _ _, .condition => true
  | e, slot => slot = e.slot

theorem moves_label_iff (e : SlotEdit) (slot : Slot) : e.Moves slot.label ↔ e.movesSlot slot := by
  cases e <;> cases slot <;> simp [Moves, movesSlot, SlotEdit.slot, Slot.label_injective.eq_iff]

end SlotEdit

/-- The slot that an edit of the form writes, if it writes a single one. -/
def Edit.slot? (r : Record) : Edit → Option Slot
  | .setText f _ => some (.text f)
  | .setItem f i _ => (place? (r.items f).length i).map (.item f)
  | .renameSelection i _ => (place? r.selections.length i).map .selectionName
  | .setSelectionKey i _ => (place? r.selections.length i).map .fieldKey
  | .setMatchStyle i _ | .setSelectionValue i _ | .setSelectionList i _ =>
    (place? r.selections.length i).map .fieldValue
  | .addItem _ _ | .removeItem _ _ | .addSelection _ | .removeSelection _ | .addConditionTerm _
  | .removeConditionTerm _ => none

namespace Gate

variable {c : Catalog} {r r' : Record} {p : Slot → Bool} {slot : Slot} {x y : Option Fault}

/-- Two records that have the same in all slots of a kind. -/
structure AgreeOn (p : Slot → Bool) (r r' : Record) : Prop where
  text : ∀ f, p (.text f) = true → r'.text f = r.text f
  items : ∀ f, (r'.items f).length = (r.items f).length
  item : ∀ f i, p (.item f i) = true → (r'.items f)[i]? = (r.items f)[i]?
  extra : r'.extras.entries.filter (p <| .extra ·.1) = r.extras.entries.filter (p <| .extra ·.1)
  selections : r'.selections.length = r.selections.length
  selection : ∀ i s s', r.selections[i]? = some s → r'.selections[i]? = some s' →
    (p (.selectionName i) = true → s'.name = s.name) ∧
    (p (.fieldKey i) = true → s'.fieldKey = s.fieldKey ∧ s'.modifier = s.modifier) ∧
    (p (.fieldValue i) = true → s'.matcher = s.matcher)
  names : (∃ i, p (.selectionName i) = true) ∨ p .condition = true →
    r'.selectionNames = r.selectionNames
  condition : r'.condition = r.condition

theorem filter_failureAt :
    (failureAt slot x).filter (p ·.slot) = if p slot then failureAt slot x else [] := by
  cases x <;> cases h : p slot <;> simp [failureAt, h]

theorem filter_failureAt_congr (h : p slot = true → x = y) :
    (failureAt slot x).filter (p ·.slot) = (failureAt slot y).filter (p ·.slot) := by
  rw [filter_failureAt, filter_failureAt]
  split
  · rename_i hp
    rw [h hp]
  · rfl

theorem flatMap_zipIdx_congr {α β : Type} {xs ys : List α} {F G : α × Nat → List β}
    (hlen : xs.length = ys.length)
    (h : ∀ i x y, xs[i]? = some x → ys[i]? = some y → F (x, i) = G (y, i)) :
    xs.zipIdx.flatMap F = ys.zipIdx.flatMap G := by
  have hmap : xs.zipIdx.map F = ys.zipIdx.map G := by
    apply List.ext_getElem
    · simpa using hlen
    · intro i hx hy
      simp only [List.length_map, List.length_zipIdx] at hx hy
      simpa using h i _ _ (List.getElem?_eq_getElem hx) (List.getElem?_eq_getElem hy)
  rw [List.flatMap_def, List.flatMap_def, hmap]

theorem filter_textFailures (h : AgreeOn p r r') :
    (textFailures c r').filter (p ·.slot) = (textFailures c r).filter (p ·.slot) := by
  rw [textFailures, textFailures, List.filter_flatMap, List.filter_flatMap]
  refine List.flatMap_congr fun f _ => filter_failureAt_congr fun hp => ?_
  rw [h.text f hp]

theorem filter_itemFailures (h : AgreeOn p r r') (f : ListField) :
    (itemFailures c r' f).filter (p ·.slot) = (itemFailures c r f).filter (p ·.slot) := by
  rw [itemFailures, itemFailures, List.filter_flatMap, List.filter_flatMap]
  refine flatMap_zipIdx_congr (h.items f) fun i v w hv hw => filter_failureAt_congr fun hp => ?_
  have hsame : v = w := Option.some.inj (hv.symm.trans ((h.item f i hp).trans hw))
  rw [hsame]

theorem filter_extraFailures_eq (r : Record) (p : Slot → Bool) :
    (extraFailures r).filter (p ·.slot) = (r.extras.entries.filter (p <| .extra ·.1)).flatMap
      fun e => failureAt (.extra e.1) (Check.extra e.1 e.2) := by
  rw [extraFailures]
  induction r.extras.entries with
  | nil => rfl
  | cons e es ih =>
    rw [List.flatMap_cons, List.filter_append, filter_failureAt, ih]
    cases hp : p (.extra e.1) <;> simp [hp]

theorem filter_extraFailures (h : AgreeOn p r r') :
    (extraFailures r').filter (p ·.slot) = (extraFailures r).filter (p ·.slot) := by
  rw [filter_extraFailures_eq, filter_extraFailures_eq, h.extra]

theorem filter_selectionFailures (h : AgreeOn p r r') :
    (selectionFailures r').filter (p ·.slot) = (selectionFailures r).filter (p ·.slot) := by
  rw [selectionFailures, selectionFailures, List.filter_flatMap, List.filter_flatMap]
  refine flatMap_zipIdx_congr h.selections fun i s' s hs' hs => ?_
  obtain ⟨hname, hkey, hvalue⟩ := h.selection i s s' hs hs'
  simp only [selectionFailuresAt, List.filter_append]
  congr 1
  · congr 1
    · refine filter_failureAt_congr fun hp => ?_
      rw [hname hp, h.names (.inl ⟨i, hp⟩)]
    · refine filter_failureAt_congr fun hp => ?_
      rw [(hkey hp).1, (hkey hp).2]
  · refine filter_failureAt_congr fun hp => ?_
    rw [hvalue hp]

theorem filter_structuralFailures (h : AgreeOn p r r') :
    (structuralFailures r').filter (p ·.slot) = (structuralFailures r).filter (p ·.slot) := by
  have hempty : r'.selections.isEmpty = r.selections.isEmpty := by
    rw [Bool.eq_iff_iff, List.isEmpty_iff_length_eq_zero, List.isEmpty_iff_length_eq_zero,
      h.selections]
  rw [structuralFailures, structuralFailures, List.filter_append, List.filter_append, hempty]
  congr 1
  cases hp : p .condition with
  | true => rw [danglingTerms, danglingTerms, h.names (.inr hp), h.condition]
  | false => simp [List.filter_map, Function.comp_def, hp]

/-- What the gate finds in some slots depends on these slots alone. -/
theorem filter_failures (c : Catalog) (h : AgreeOn p r r') :
    (evaluate c r').failures.filter (p ·.slot) = (evaluate c r).failures.filter (p ·.slot) := by
  simp only [evaluate, List.filter_append, filter_textFailures h, filter_itemFailures h,
    filter_extraFailures h, filter_selectionFailures h, filter_structuralFailures h,
    conditionFailures, h.condition]

theorem AgreeOn.refl (p : Slot → Bool) (r : Record) : AgreeOn p r r where
  text _ _ := rfl
  items _ := rfl
  item _ _ _ := rfl
  extra := rfl
  selections := rfl
  selection i s s' hs hs' := by
    obtain rfl := Option.some.inj (hs.symm.trans hs')
    exact ⟨fun _ => rfl, fun _ => ⟨rfl, rfl⟩, fun _ => rfl⟩
  names _ := rfl
  condition := rfl

theorem filter_put {α : Type} {q : String → Bool} {k : String} (v : α) (es : List (String × α))
    (hq : q k = false) : (Table.put k v es).filter (q ·.1) = es.filter (q ·.1) := by
  induction es with
  | nil => simp [Table.put, hq]
  | cons e es ih =>
    rw [Table.put]
    split
    · rename_i hk
      simp [hk, hq]
    · simp only [List.filter_cons, ih]

theorem agreeOn_modify {n : Nat} {g : Selection → Selection}
    (hname : (∃ i, p (.selectionName i) = true) ∨ p .condition = true → ∀ s, (g s).name = s.name)
    (hkey : p (.fieldKey n) = true → ∀ s, (g s).fieldKey = s.fieldKey ∧ (g s).modifier = s.modifier)
    (hvalue : p (.fieldValue n) = true → ∀ s, (g s).matcher = s.matcher) :
    AgreeOn p r { r with selections := r.selections.modify n g } where
  text := (AgreeOn.refl p r).text
  items := (AgreeOn.refl p r).items
  item := (AgreeOn.refl p r).item
  extra := rfl
  selections := List.length_modify ..
  selection i s s' hs hs' := by
    have hget : s' = if n = i then g s else s := by
      simpa [List.getElem?_modify, hs, eq_comm] using hs'
    subst hget
    split
    · rename_i hi
      subst hi
      exact ⟨fun hp => hname (.inl ⟨n, hp⟩) s, fun hp => hkey hp s, fun hp => hvalue hp s⟩
    · exact ⟨fun _ => rfl, fun _ => ⟨rfl, rfl⟩, fun _ => rfl⟩
  names hp := Record.names_modify r.selections n (hname hp)
  condition := rfl

theorem agreeOn_apply (e : SlotEdit) (r : Record) : AgreeOn (!e.movesSlot ·) r (e.apply r) := by
  cases e with
  | text f value =>
    have hagree := AgreeOn.refl (!(SlotEdit.text f value).movesSlot ·) r
    cases f <;>
      exact { hagree with
        text := by
          intro g hg
          cases g <;> first | rfl | cases hg }
  | item f i value =>
    have hagree := AgreeOn.refl (!(SlotEdit.item f i value).movesSlot ·) r
    -- The other items of the list are other slots.
    have hkept : ∀ j, (!(SlotEdit.item f i value).movesSlot (.item f j)) = true →
        ((r.items f).modify i fun _ => value)[j]? = (r.items f)[j]? := by
      intro j hj
      have hne : i ≠ j := by
        rintro rfl
        simp [SlotEdit.movesSlot, SlotEdit.slot] at hj
      simp [hne]
    cases f <;>
      exact { hagree with
        items := by
          intro g
          cases g <;> first | rfl | exact List.length_modify ..
        item := by
          intro g
          cases g <;> first | exact hkept | exact fun _ _ => rfl }
  | extra key value =>
    have hagree := AgreeOn.refl (!(SlotEdit.extra key value).movesSlot ·) r
    have hmoved : (!(SlotEdit.extra key value).movesSlot (.extra key)) = false := by
      simp [SlotEdit.movesSlot, SlotEdit.slot]
    exact { hagree with
      extra := filter_put (q := fun k => !(SlotEdit.extra key value).movesSlot (.extra k)) value _
        hmoved }
  | selectionName i name =>
    refine agreeOn_modify ?_ (fun _ _ => ⟨rfl, rfl⟩) fun _ _ => rfl
    simp [SlotEdit.movesSlot]
  | fieldKey i key modifier =>
    refine agreeOn_modify (fun _ _ => rfl) ?_ fun _ _ => rfl
    simp [SlotEdit.movesSlot, SlotEdit.slot]
  | fieldValue i matcher =>
    refine agreeOn_modify (fun _ _ => rfl) (fun _ _ => ⟨rfl, rfl⟩) ?_
    simp [SlotEdit.movesSlot, SlotEdit.slot]

theorem eq_of_modifySelection {i : Int} {n : Nat} {g : Selection → Selection}
    (h : r.modifySelection i g = .ok r') (hi : place? r.selections.length i = some n) :
    r' = { r with selections := r.selections.modify n g } := by
  obtain ⟨m, hm, rfl⟩ := Record.modifySelection_eq_ok_iff.mp h
  cases hi.symm.trans hm
  rfl

theorem modify_eq_modify_const {ss : List Selection} {n : Nat} (hn : n < ss.length)
    (g : Selection → Selection) (m : Matcher) (hg : g ss[n] = { ss[n] with matcher := m }) :
    ss.modify n g = ss.modify n ({ · with matcher := m }) := by
  simp [List.modify_eq_set_getElem?, List.getElem?_eq_getElem hn, hg]

theorem exists_slotEdit {e : Edit} (h : e.apply r = .ok r') (hs : e.slot? r = some slot) :
    ∃ d : SlotEdit, d.slot = slot ∧ d.apply r = r' := by
  cases e with
  | setText f value =>
    cases hs
    cases h
    cases f with
    | level => exact ⟨.text .level (Text.lower value), rfl, rfl⟩
    | _ => exact ⟨.text _ value, rfl, rfl⟩
  | setItem f i value =>
    obtain ⟨n, hi, rfl⟩ := Option.map_eq_some_iff.mp hs
    simp only [Edit.apply, modifyAt, hi, Except.ok.injEq] at h
    exact ⟨.item f n value, rfl, h⟩
  | renameSelection i name =>
    obtain ⟨n, hi, rfl⟩ := Option.map_eq_some_iff.mp hs
    obtain rfl := eq_of_modifySelection h hi
    exact ⟨.selectionName n name, rfl, rfl⟩
  | setSelectionKey i key =>
    obtain ⟨n, hi, rfl⟩ := Option.map_eq_some_iff.mp hs
    obtain rfl := eq_of_modifySelection h hi
    exact ⟨.fieldKey n _ _, rfl, rfl⟩
  | setMatchStyle i style =>
    obtain ⟨n, hi, rfl⟩ := Option.map_eq_some_iff.mp hs
    have hn := place?_lt hi
    cases hstyle : Style.ofValue style with
    | error fault => simp [Edit.apply, hi, hstyle] at h
    | ok style =>
      simp only [Edit.apply, hi, hstyle] at h
      obtain rfl := eq_of_modifySelection h hi
      -- The matcher that is written depends on the one that is there.
      refine ⟨.fieldValue n (r.selections[n].matcher.switchTo style), rfl, ?_⟩
      rw [modify_eq_modify_const hn _ _ rfl]
      rfl
  | setSelectionValue i value =>
    obtain ⟨n, hi, rfl⟩ := Option.map_eq_some_iff.mp hs
    obtain rfl := eq_of_modifySelection h hi
    exact ⟨.fieldValue n (.one value), rfl, rfl⟩
  | setSelectionList i values =>
    obtain ⟨n, hi, rfl⟩ := Option.map_eq_some_iff.mp hs
    obtain rfl := eq_of_modifySelection h hi
    exact ⟨.fieldValue n (.many values), rfl, rfl⟩
  | _ => cases hs

/-- An edit of one slot moves no failures but those at its own field, and an edited name none but
those at names of selections and at the condition: the others are the same ones in the same order.
The fields of two slots are never the same, and each edit of the form that writes one slot is an
edit of this kind. -/
theorem failures_of_slotEdit (c : Catalog) (r : Record) :
    (∀ e : SlotEdit,
      (evaluate c (e.apply r)).failures.filter (fun f => ¬e.Moves f.field) =
        (evaluate c r).failures.filter fun f => ¬e.Moves f.field) ∧
    Function.Injective Slot.label ∧
    ∀ (e : Edit) (r' : Record) (slot : Slot), e.apply r = .ok r' → e.slot? r = some slot →
      ∃ d : SlotEdit, d.slot = slot ∧ d.apply r = r' := by
  refine ⟨fun e => ?_, Slot.label_injective, fun e r' slot h hs => exists_slotEdit h hs⟩
  have hfield : (fun f : Failure => decide ¬e.Moves f.field) = (!e.movesSlot ·.slot) := by
    funext f
    simp [Failure.field, SlotEdit.moves_label_iff]
  rw [hfield]
  exact filter_failures c (agreeOn_apply e r)

theorem failures_of_slotEdit_restyled :
    ∃ r', (Edit.setMatchStyle (-1) (.text "list")).apply .fresh = .ok r' ∧
      (Edit.setMatchStyle (-1) (.text "list")).slot? .fresh = some (.fieldValue 0) ∧
      r'.selections = [⟨"Selection_1", "", none, .many []⟩] ∧
      ∃ d : SlotEdit, d.slot = .fieldValue 0 ∧ d.apply .fresh = r' := by
  have hslot : (Edit.setMatchStyle (-1) (.text "list")).slot? .fresh = some (.fieldValue 0) := rfl
  exact ⟨_, rfl, hslot, rfl, (failures_of_slotEdit .standard .fresh).2.2 _ _ _ rfl hslot⟩

end Gate

end SigmaDesk
