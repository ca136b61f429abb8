import SigmaDesk.Proofs.RuleText.Reading

/-!
# What a preview shows

A preview is the text of what it shows of a record: every value on one line, of a selection without
a field its name only, and the condition word by word.
-/

namespace SigmaDesk

namespace RuleText

/-- A value as a preview shows it: one of several lines as its words. -/
def shownValue (v : String) : String := if Text.isSingleLine v then v else Policy.joinWords v

end RuleText

open RuleText (shownValue)

def Matcher.shown : Matcher → Matcher
  | .one text => if (shownValue text).isEmpty then .many [] else .one (shownValue text)
  | .many items => .many (items.map shownValue)

def Selection.shown (s : Selection) : Selection :=
  if s.fieldKey.isEmpty then { name := s.name } else { s with matcher := s.matcher.shown }

def Condition.shown (c : Condition) : Condition :=
  ⟨(Text.words c.text.toList).map String.ofList⟩

def Record.shown (r : Record) : Record where
  id := identifier? (shownValue (r.id.getD ""))
  name := shownValue r.name
  description := shownValue r.description
  author := shownValue r.author
  logType := shownValue r.logType
  level := shownValue (Text.lower r.level)
  status := shownValue r.status
  tags := r.tags.map shownValue
  references := r.references.map shownValue
  falsePositives := r.falsePositives.map shownValue
  selections := r.selections.map (·.shown)
  condition := r.condition.shown
  extras := r.extras.mapValues shownValue

def Selection.Whole (s : Selection) : Prop :=
  s.IsBlank ∨ s.fieldKey ≠ "" ∧ s.matcher ≠ .one "" ∧
    ∀ v ∈ s.matcher.texts, Text.isSingleLine v = true

/-- A record of which a preview shows all there is: each value stands on one line, each selection is
blank or has a field with a value, and each term of the condition is a word. -/
structure Record.Whole (r : Record) : Prop where
  text : ∀ f, Text.isSingleLine (r.text f) = true
  level : Text.lower r.level = r.level
  item : ∀ f, ∀ v ∈ r.items f, Text.isSingleLine v = true
  selection : ∀ s ∈ r.selections, s.Whole
  term : ∀ t ∈ r.condition.terms, Text.IsWord t.toList
  extra : ∀ v ∈ r.extras.values, Text.isSingleLine v = true

namespace RuleText

variable {r : Record} {s : Selection} {v : String}

theorem oneLine_preview (v : String) :
    Policy.preview.oneLine v = (pure (shownValue v) : Id String) := rfl

theorem toList_joinWords (v : String) :
    (Policy.joinWords v).toList = [' '].intercalate (Text.words v.toList) := by
  have hback : (List.map String.ofList (Text.words v.toList)).map String.toList =
      Text.words v.toList := by simp
  rw [Policy.joinWords, String.toList_intercalate, hback]
  rfl

theorem words_joinWords (v : String) :
    Text.words (Policy.joinWords v).toList = Text.words v.toList := by
  rw [toList_joinWords]
  exact Text.words_intercalate fun w hw => Text.isWord_of_mem_words hw

theorem words_shownValue (v : String) :
    Text.words (shownValue v).toList = Text.words v.toList := by
  unfold shownValue
  split
  · rfl
  · exact words_joinWords v

theorem mem_joinWords {c : Char} (h : c ∈ (Policy.joinWords v).toList) :
    c = ' ' ∨ c ∈ v.toList ∧ Text.isBlank c = false := by
  rw [toList_joinWords] at h
  rcases Text.mem_intercalate h with hsep | ⟨w, hw, hc⟩
  · exact .inl (List.mem_singleton.mp hsep)
  · exact .inr ⟨Text.mem_of_mem_words hw hc, (Text.isWord_of_mem_words hw).solid c hc⟩

theorem unbroken_joinWords (v : String) : Text.unbroken (Policy.joinWords v) = true := by
  refine Text.unbroken_iff.mpr fun c hc => ?_
  rcases mem_joinWords hc with rfl | ⟨-, hsolid⟩
  · rfl
  · cases hb : Text.isBreak c with
    | false => rfl
    | true => cases hsolid.symm.trans (Text.isBlank_of_isBreak hb)

theorem shownValue_eq_self_iff : shownValue v = v ↔ Text.isSingleLine v = true := by
  unfold shownValue
  split
  · rename_i h
    exact iff_of_true rfl h
  · rename_i h
    refine iff_of_false (fun heq => h ?_) h
    rw [← heq]
    exact Text.isSingleLine_of_unbroken (unbroken_joinWords v)

theorem lower_shownValue (v : String) :
    Text.lower (shownValue (Text.lower v)) = shownValue (Text.lower v) := by
  unfold shownValue
  split
  · exact Text.lower_lower v
  · refine Text.lower_of_lowered fun c hc => ?_
    rcases mem_joinWords hc with rfl | ⟨hmem, -⟩
    · exact ⟨by decide +kernel, by decide, by decide⟩
    · exact Text.lowered_of_mem_lower hmem

theorem lower_level_shown (r : Record) : Text.lower r.shown.level = r.shown.level := by
  simp only [Record.shown, lower_shownValue]

/-- The lines of a preview. Whether there is a description line is up to the description itself,
even if nothing of it is shown. -/
def previewText (r : Record) : List String :=
  openingLines (!r.description.isEmpty) r.shown ++ listsText r.shown ++
    extrasText r.shown.extras.entries ++
    entryText "detection" "" ::
      (indentation ++ entryText "condition" (shownValue r.condition.text)) ::
        r.shown.selections.flatMap (selectionText indentation)

theorem entryLine_preview (key v : String) :
    entryLine Policy.preview key v = (pure (entryText key (shownValue v)) : Id String) :=
  entryLine_eq_pure (oneLine_preview v) key

theorem itemLines_preview (vs : List String) :
    vs.mapM (itemLine Policy.preview) =
      (pure ((vs.map shownValue).map itemText) : Id (List String)) := by
  rw [List.map_map]
  exact mapM_eq_pure fun v _ => itemLine_eq_pure (oneLine_preview v)

theorem shown_of_field (h : s.fieldKey.isEmpty = false) :
    s.shown = { s with matcher := s.matcher.shown } := by simp [Selection.shown, h]

theorem shown_of_blank (h : s.fieldKey.isEmpty = true) : s.shown = { name := s.name } := by
  simp [Selection.shown, h]

theorem name_shown (s : Selection) : s.shown.name = s.name := by
  unfold Selection.shown
  split <;> rfl

theorem matcherLines_preview (pad : String) (s : Selection) :
    matcherLines Policy.preview pad s = (pure (matcherText pad s.shown) : Id (List String)) := by
  cases hfield : s.fieldKey.isEmpty with
  | true =>
    rw [matcherLines, if_pos hfield, shown_of_blank hfield]
    rfl
  | false =>
    have hkey : ({ s with matcher := s.matcher.shown } : Selection).key = s.key := rfl
    rw [matcherLines, hfield, shown_of_field hfield, matcherText, hkey, hfield]
    simp only [Bool.false_eq_true, if_false]
    cases s.matcher with
    | one text =>
      simp only [entryLine_preview, pure_bind, Matcher.shown]
      by_cases hempty : (shownValue text).isEmpty = true
      · rw [if_pos hempty, String.isEmpty_iff.mp hempty]
        rfl
      · rw [if_neg hempty]
    | many items =>
      simp only [itemLines_preview, pure_bind, Matcher.shown, List.map_map, Function.comp_def,
        String.append_assoc, entryText_empty]

theorem selectionLines_preview (pad : String) (s : Selection) :
    selectionLines Policy.preview pad s = (pure (selectionText pad s.shown) : Id (List String)) := by
  rw [selectionLines, selectionText, name_shown, matcherLines_preview, entryText_empty,
    ← String.append_assoc]
  rfl

theorem listLines_preview {render : String → Id String} {text : String → String}
    (h : ∀ v, render v = pure (text (shownValue v))) (key : String) (vs : List String) :
    listLines key render vs = (pure (listText key text (vs.map shownValue)) : Id (List String)) := by
  rw [listLines_eq_pure (fun v _ => h v) key, listText, listText, List.map_map]
  rfl

theorem detectionLines_preview (pad : String) (r : Record) :
    detectionLines Policy.preview pad r =
      (pure ((pad ++ entryText "condition" (shownValue r.condition.text)) ::
        r.shown.selections.flatMap (selectionText pad)) : Id (List String)) := by
  have hselections := mapM_eq_pure (m := Id) (f := selectionLines Policy.preview pad)
    (g := fun s => selectionText pad s.shown) (l := r.selections)
    fun s _ => selectionLines_preview pad s
  rw [detectionLines, entryLine_preview, hselections, Record.shown, List.flatMap_map,
    List.flatMap_def]
  rfl

/-- A preview is the text of what it shows. -/
theorem preview_eq_shown (r : Record) : preview r = textOfLines (previewText r) := by
  have hextras : (r.extras.entries.mapM fun e =>
      (pure (entryText e.1 (shownValue e.2)) : Id String)) =
        pure (r.extras.entries.map fun e => entryText e.1 (shownValue e.2)) :=
    mapM_eq_pure fun _ _ => rfl
  have hid : r.shown.id.getD "" = shownValue (r.id.getD "") := by
    simp only [Record.shown, getD_identifier?]
  have hlevel : Text.lower r.shown.level = shownValue (Text.lower r.level) := by
    simp only [Record.shown, lower_shownValue]
  have hextrasText : extrasText r.shown.extras.entries =
      r.extras.entries.map fun e => entryText e.1 (shownValue e.2) := List.map_map
  have hlist := listLines_preview fun v => itemLine_eq_pure (oneLine_preview v)
  have hquoted := listLines_preview fun v => quotedItemLine_eq_pure (oneLine_preview v)
  have hlines : ruleLines Policy.preview r = (pure (previewText r) : Id (List String)) := by
    simp only [previewText, openingLines, listsText, hid, hlevel, hextrasText]
    cases hd : r.description.isEmpty with
    | true =>
      simp only [ruleLines, entryLine_preview, hlist, hquoted, hextras,
        detectionLines_preview, hd, if_true, pure_bind, Bool.not_true, Bool.false_eq_true, if_false,
        List.append_assoc]
      rfl
    | false =>
      simp only [ruleLines, entryLine_preview, hlist, hquoted, hextras,
        detectionLines_preview, hd, if_true, pure_bind, map_pure, Bool.not_false,
        Bool.false_eq_true, if_false, List.append_assoc]
      rfl
  rw [preview, hlines]
  rfl

theorem map_eq_self_iff {α : Type} {f : α → α} {l : List α} : l.map f = l ↔ ∀ a ∈ l, f a = a := by
  simpa using List.map_inj_left (l := l) (f := f) (g := id)

theorem map_shownValue_eq_self_iff {vs : List String} :
    vs.map shownValue = vs ↔ ∀ v ∈ vs, Text.isSingleLine v = true := by
  simp only [map_eq_self_iff, shownValue_eq_self_iff]

theorem shown_matcher_eq_self_iff {m : Matcher} :
    m.shown = m ↔ m ≠ .one "" ∧ ∀ v ∈ m.texts, Text.isSingleLine v = true := by
  cases m with
  | one text =>
    simp only [Matcher.shown, Matcher.texts, List.forall_mem_singleton, ne_eq, Matcher.one.injEq,
      ← shownValue_eq_self_iff]
    split
    · rename_i hempty
      refine iff_of_false (fun heq => ?_) fun h => ?_
      · cases heq
      · exact h.1 (h.2.symm.trans (String.isEmpty_iff.mp hempty))
    · rename_i hempty
      rw [Matcher.one.injEq]
      refine ⟨fun hself => ⟨fun h => hempty ?_, hself⟩, And.right⟩
      rw [hself, h]
      rfl
  | many items =>
    simp only [Matcher.shown, Matcher.texts, Matcher.many.injEq, ne_eq, reduceCtorEq,
      not_false_eq_true, true_and, map_shownValue_eq_self_iff]

theorem shown_selection_eq_self_iff : s.shown = s ↔ s.Whole := by
  cases he : s.fieldKey.isEmpty with
  | true =>
    have hempty : s.fieldKey = "" := String.isEmpty_iff.mp he
    rw [shown_of_blank he, Selection.Whole]
    exact ⟨fun h => .inl h.symm, fun h => (h.resolve_right fun hf => hf.1 hempty).symm⟩
  | false =>
    have hne : s.fieldKey ≠ "" := by simpa using he
    have hblank : ¬s.IsBlank := fun h => hne (by rw [h])
    have hself : ({ s with matcher := s.matcher.shown } : Selection) = s ↔
        s.matcher.shown = s.matcher := by
      obtain ⟨name, fieldKey, modifier, matcher⟩ := s
      simp
    rw [shown_of_field he, hself, shown_matcher_eq_self_iff, Selection.Whole]
    simp [hblank, hne]

theorem shown_condition_eq_self_iff {c : Condition} :
    c.shown = c ↔ ∀ t ∈ c.terms, Text.IsWord t.toList := by
  constructor
  · intro h t ht
    rw [← h] at ht
    obtain ⟨w, hw, rfl⟩ := List.mem_map.mp ht
    rw [String.toList_ofList]
    exact Text.isWord_of_mem_words hw
  · intro h
    have hwords : Text.words c.text.toList = c.terms.map String.toList := by
      rw [toList_conditionText]
      exact Text.words_intercalate (List.forall_mem_map.mpr h)
    rw [Condition.shown, hwords]
    simp

theorem shown_level_eq_self_iff :
    shownValue (Text.lower v) = v ↔ Text.isSingleLine v = true ∧ Text.lower v = v := by
  constructor
  · intro h
    have hlower : Text.lower v = v := by rw [← h, lower_shownValue]
    exact ⟨shownValue_eq_self_iff.mp (by rw [hlower] at h; exact h), hlower⟩
  · rintro ⟨hline, hlower⟩
    rw [hlower, shownValue_eq_self_iff.mpr hline]

theorem shown_extras_eq_self_iff {t : Table String} :
    t.mapValues shownValue = t ↔ ∀ v ∈ t.values, Text.isSingleLine v = true := by
  have hentries : t.mapValues shownValue = t ↔
      t.entries.map (fun e => (e.1, shownValue e.2)) = t.entries := by
    obtain ⟨entries, distinct⟩ := t
    simp only [Table.mapValues, Table.mk.injEq]
  rw [hentries, map_eq_self_iff, Table.values, List.forall_mem_map]
  simp only [Prod.ext_iff, true_and, shownValue_eq_self_iff]

/-- What a preview shows of a record is the record itself exactly if that is all of it. -/
theorem shown_eq_self_iff : { r.shown with id := r.id } = r ↔ r.Whole := by
  have hparts : { r.shown with id := r.id } = r ↔
      shownValue r.name = r.name ∧ shownValue r.description = r.description ∧
        shownValue r.author = r.author ∧ shownValue r.logType = r.logType ∧
        shownValue (Text.lower r.level) = r.level ∧ shownValue r.status = r.status ∧
        r.tags.map shownValue = r.tags ∧ r.references.map shownValue = r.references ∧
        r.falsePositives.map shownValue = r.falsePositives ∧
        r.selections.map (·.shown) = r.selections ∧ r.condition.shown = r.condition ∧
        r.extras.mapValues shownValue = r.extras := by
    obtain ⟨⟩ := r
    simp only [Record.shown, Record.mk.injEq, true_and]
  simp only [hparts, shownValue_eq_self_iff, shown_level_eq_self_iff, map_eq_self_iff,
    shown_selection_eq_self_iff, shown_condition_eq_self_iff, shown_extras_eq_self_iff]
  constructor
  · rintro ⟨hname, hdescription, hauthor, hlogType, ⟨hlevel, hlower⟩, hstatus, htags, hreferences,
      hfalsePositives, hselection, hterm, hextra⟩
    refine ⟨fun f => ?_, hlower, fun f => ?_, hselection, hterm, hextra⟩
    · cases f <;> assumption
    · cases f <;> assumption
  · intro h
    exact ⟨h.text .name, h.text .description, h.text .author, h.text .logType,
      ⟨h.text .level, h.level⟩, h.text .status, h.item .tags, h.item .references,
      h.item .falsePositives, h.selection, h.term, h.extra⟩

end RuleText

end SigmaDesk
