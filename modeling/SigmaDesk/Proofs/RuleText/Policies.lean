import SigmaDesk.Proofs.Acceptance
import SigmaDesk.Proofs.RuleText.Written

/-!
# One rendering, two policies

Under a policy that accepts everything the rendering gives its lines in every monad, also in one
that can refuse. The strict writer gives its lines for the complete records of single-line values
and for no others, and then they are those of the preview.
-/

namespace SigmaDesk.RuleText

variable {m : Type → Type} [Monad m] [LawfulMonad m] {p : Policy Id}

/-- A policy that accepts everything, in a monad that can refuse. -/
def Policy.lift (p : Policy Id) : Policy m where
  oneLine v := pure (p.oneLine v).run
  condition c := pure (p.condition c).run
  selection s := pure (p.selection s).run

section

omit [LawfulMonad m]

@[simp] theorem Policy.oneLine_lift (v : String) :
    (p.lift : Policy m).oneLine v = pure (p.oneLine v).run := rfl

@[simp] theorem Policy.condition_lift (c : Condition) :
    (p.lift : Policy m).condition c = pure (p.condition c).run := rfl

@[simp] theorem Policy.selection_lift (s : Selection) :
    (p.lift : Policy m).selection s = pure (p.selection s).run := rfl

end

theorem mapM_lift {α β : Type} {f : α → m β} {g : α → Id β} (h : ∀ a, f a = pure (g a).run)
    (l : List α) : l.mapM f = pure (l.mapM g).run := by
  have hid : l.mapM g = (pure (l.map fun a => (g a).run) : Id (List β)) :=
    mapM_eq_pure fun _ _ => rfl
  rw [hid]
  exact mapM_eq_pure fun a _ => h a

theorem entryLine_lift (key v : String) :
    entryLine (p.lift : Policy m) key v = pure (entryLine p key v).run := by
  simp [entryLine]

theorem itemLine_lift (v : String) :
    itemLine (p.lift : Policy m) v = pure (itemLine p v).run := by
  simp [itemLine]

theorem quotedItemLine_lift (v : String) :
    quotedItemLine (p.lift : Policy m) v = pure (quotedItemLine p v).run := by
  simp [quotedItemLine]

theorem listLines_lift {f : String → m String} {g : String → Id String}
    (h : ∀ v, f v = pure (g v).run) (key : String) (vs : List String) :
    listLines key f vs = pure (listLines key g vs).run := by
  simp [listLines, mapM_lift h]

theorem matcherLines_lift (pad : String) (s : Selection) :
    matcherLines (p.lift : Policy m) pad s = pure (matcherLines p pad s).run := by
  unfold matcherLines
  split
  · rfl
  · cases s.matcher with
    | one text => simp [entryLine_lift]
    | many items => simp [mapM_lift itemLine_lift]

theorem selectionLines_lift (pad : String) (s : Selection) :
    selectionLines (p.lift : Policy m) pad s = pure (selectionLines p pad s).run := by
  simp [selectionLines, matcherLines_lift]

theorem detectionLines_lift (pad : String) (r : Record) :
    detectionLines (p.lift : Policy m) pad r = pure (detectionLines p pad r).run := by
  simp [detectionLines, entryLine_lift, mapM_lift (selectionLines_lift pad)]

theorem ruleLines_lift (r : Record) :
    ruleLines (p.lift : Policy m) r = pure (ruleLines p r).run := by
  have hitems := listLines_lift (itemLine_lift (m := m) (p := p))
  have hquoted := listLines_lift (quotedItemLine_lift (m := m) (p := p))
  cases hd : r.description.isEmpty with
  | true => simp [ruleLines, entryLine_lift, hitems, hquoted, detectionLines_lift, hd]
  | false => simp [ruleLines, entryLine_lift, hitems, hquoted, detectionLines_lift, hd]

variable {r : Record}

def lineValues (r : Record) : List String :=
  [r.id.getD "", r.logType, r.name, r.description, r.level, r.status, r.author] ++ r.tags ++
    r.falsePositives ++ r.references ++ r.extras.values ++
    r.condition.text :: r.selections.flatMap (·.values)

theorem forall_values_iff {P : String → Prop} (h : P "") (s : Selection) :
    (∀ v ∈ s.values, P v) ↔ ∀ v ∈ s.matcher.texts, P v := by
  unfold Selection.values
  cases s.matcher with
  | one text =>
    by_cases hempty : text = ""
    · simp [Matcher.values, Matcher.itemsOf, Matcher.texts, hempty, h]
    · simp [Matcher.values, Matcher.itemsOf, Matcher.texts, hempty]
  | many items => rfl

theorem forall_shownValues_iff :
    (∀ v ∈ r.shownValues, Text.isSingleLine v = true) ↔ ∀ v ∈ lineValues r, Gate.OneLine v := by
  have hselection := forall_values_iff (P := Gate.OneLine) ⟨nofun, nofun⟩
  have hlevel : Gate.OneLine (Text.lower r.level) ↔ Gate.OneLine r.level := by
    rw [← Gate.isSingleLine_iff, ← Gate.isSingleLine_iff, Text.isSingleLine_lower]
  simp only [Gate.isSingleLine_iff, Record.shownValues, Record.detectionValues, lineValues,
    List.forall_mem_append, List.forall_mem_cons, List.forall_mem_flatMap, hselection, hlevel]

theorem printable_iff : Printable r ↔ r.condition.terms ≠ [] ∧
    (∀ s ∈ r.selections, s.isComplete = true) ∧ ∀ v ∈ lineValues r, Gate.OneLine v := by
  have hcondition : r.condition.isEmpty = false ↔ r.condition.terms ≠ [] := by
    simp [Condition.isEmpty]
  rw [← forall_shownValues_iff, ← hcondition]
  constructor
  · intro h
    exact ⟨h.condition, h.complete, h.value⟩
  · rintro ⟨hcondition, hcomplete, hvalue⟩
    exact ⟨hcondition, hcomplete, hvalue⟩

/-- The preview of a rule and that of its detection block are never refused. The strict writer
gives the lines of a rule exactly if it has a condition, complete selections and no line feed or
carriage return in a value; the texts that it gives are the previews. -/
theorem write_agrees_with_preview (r : Record) :
    (∃ ls, ruleLines (Policy.preview.lift : Policy (Except WriteError)) r = .ok ls ∧
      preview r = textOfLines ls) ∧
    (∃ ls, detectionLines (Policy.preview.lift : Policy (Except WriteError)) "" r = .ok ls ∧
      previewDetection r = textOfLines ls) ∧
    ((∃ ls, writeLines r = .ok ls) ↔ r.condition.terms ≠ [] ∧
      (∀ s ∈ r.selections, s.isComplete = true) ∧
      ∀ v ∈ lineValues r, '\n' ∉ v.toList ∧ '\r' ∉ v.toList) ∧
    (∀ t, write r = .ok t → preview r = t) ∧
    ∀ t, writeDetection r = .ok t → previewDetection r = t := by
  refine ⟨⟨_, ruleLines_lift r, rfl⟩, ⟨_, detectionLines_lift "" r, rfl⟩, ?_, ?_, ?_⟩
  · refine Iff.trans ⟨?_, ?_⟩ printable_iff
    · rintro ⟨ls, hls⟩
      exact printable_of_writeLines hls
    · intro h
      exact ⟨_, ruleLines_eq_pure h.passes⟩
  · intro t ht
    obtain ⟨hprintable, rfl⟩ := write_ok_iff.mp ht
    exact preview_eq hprintable.value
  · intro t ht
    exact previewDetection_eq ht

end SigmaDesk.RuleText
