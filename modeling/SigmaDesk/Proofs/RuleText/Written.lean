import SigmaDesk.Proofs.Casing
import SigmaDesk.Proofs.RuleText.Line

/-!
# What is written

The rendering of a record that every policy comes to when it lets all values pass, and which records
the strict writer lets pass.
-/

namespace SigmaDesk

/-- The texts of a matcher; a single one counts even when it is empty. -/
def Matcher.texts : Matcher → List String
  | .one text => [text]
  | .many items => items

namespace Record

def detectionValues (r : Record) : List String :=
  r.condition.text :: r.selections.flatMap (·.matcher.texts)

def shownValues (r : Record) : List String :=
  [r.id.getD "", r.logType, r.name, r.description, Text.lower r.level, r.status, r.author] ++
    r.tags ++ r.falsePositives ++ r.references ++ r.extras.values ++ r.detectionValues

theorem isSingleLine_shownValues {r : Record} (id : Text.isSingleLine (r.id.getD "") = true)
    (text : ∀ f, Text.isSingleLine (r.text f) = true)
    (item : ∀ f, ∀ v ∈ r.items f, Text.isSingleLine v = true)
    (extra : ∀ e ∈ r.extras.entries, Text.isSingleLine e.2 = true)
    (detection : ∀ v ∈ r.detectionValues, Text.isSingleLine v = true) :
    ∀ v ∈ r.shownValues, Text.isSingleLine v = true := by
  intro v hv
  simp only [shownValues, List.mem_append, List.mem_cons, List.not_mem_nil, or_false] at hv
  rcases hv with ((((hv | hv) | hv) | hv) | hv) | hv
  · rcases hv with rfl | rfl | rfl | rfl | rfl | rfl | rfl
    · exact id
    · exact text .logType
    · exact text .name
    · exact text .description
    · rw [Text.isSingleLine_lower]
      exact text .level
    · exact text .status
    · exact text .author
  · exact item .tags v hv
  · exact item .falsePositives v hv
  · exact item .references v hv
  · obtain ⟨e, he, rfl⟩ := List.mem_map.mp hv
    exact extra e he
  · exact detection v hv

end Record

namespace RuleText

variable {m : Type → Type} [Monad m] [LawfulMonad m] {p : Policy m}
variable {key value pad v : String} {s : Selection} {r : Record} {ls : List String}

-- ---------------------------------------------------------------------------
-- The plain rendering
-- ---------------------------------------------------------------------------

def listText (key : String) (item : String → String) (values : List String) : List String :=
  entryText key "" :: values.map (indentation ++ item ·)

def matcherText (pad : String) (s : Selection) : List String :=
  if s.fieldKey.isEmpty then []
  else
    match s.matcher with
    | .one text => [pad ++ entryText s.key text]
    | .many items =>
      (pad ++ entryText s.key "") :: items.map (pad ++ indentation ++ itemText ·)

def selectionText (pad : String) (s : Selection) : List String :=
  (pad ++ entryText s.name "") :: matcherText (pad ++ indentation) s

def detectionText (pad : String) (r : Record) : List String :=
  (pad ++ entryText "condition" r.condition.text) :: r.selections.flatMap (selectionText pad)

def headText (r : Record) : List String :=
  [entryText "id" (r.id.getD ""), entryText "logsource" "",
    indentation ++ entryText "product" r.logType, entryText "title" r.name] ++
    (if r.description.isEmpty then [] else [entryText "description" r.description]) ++
    listText "tags" itemText r.tags ++ listText "falsepositives" itemText r.falsePositives ++
    [entryText "level" (Text.lower r.level), entryText "status" r.status] ++
    listText "references" quotedItemText r.references ++ [entryText "author" r.author]

def openingLines (described : Bool) (r : Record) : List String :=
  [entryText "id" (r.id.getD ""), entryText "logsource" "",
    indentation ++ entryText "product" r.logType, entryText "title" r.name] ++
    if described then [entryText "description" r.description] else []

def listsText (r : Record) : List String :=
  listText "tags" itemText r.tags ++ listText "falsepositives" itemText r.falsePositives ++
    [entryText "level" (Text.lower r.level), entryText "status" r.status] ++
    listText "references" quotedItemText r.references ++ [entryText "author" r.author]

theorem headText_eq (r : Record) :
    headText r = openingLines (!r.description.isEmpty) r ++ listsText r := by
  cases hd : r.description.isEmpty <;>
    simp [headText, openingLines, listsText, hd, List.append_assoc]

def extrasText (es : List (String × String)) : List String := es.map fun e => entryText e.1 e.2

def ruleText (r : Record) : List String :=
  headText r ++ extrasText r.extras.entries ++
    entryText "detection" "" :: detectionText indentation r

-- ---------------------------------------------------------------------------
-- Policies that let a record pass
-- ---------------------------------------------------------------------------

structure Policy.PassesDetection (p : Policy m) (r : Record) : Prop where
  condition : p.condition r.condition = pure ()
  selection : ∀ s ∈ r.selections, p.selection s = pure ()
  value : ∀ v ∈ r.detectionValues, p.oneLine v = pure v

theorem mapM_eq_pure {α β : Type} {f : α → m β} {g : α → β} {l : List α}
    (h : ∀ v ∈ l, f v = pure (g v)) : l.mapM f = pure (l.map g) := by
  induction l with
  | nil => rfl
  | cons v l ih => simp [h v (by simp), ih fun w hw => h w (by simp [hw])]

theorem entryLine_eq_pure (h : p.oneLine value = pure v) (key : String) :
    entryLine p key value = pure (entryText key v) := by
  simp [entryLine, h, entryText]

theorem itemLine_eq_pure (h : p.oneLine value = pure v) :
    itemLine p value = pure (itemText v) := by
  simp [itemLine, h, itemText]

theorem quotedItemLine_eq_pure (h : p.oneLine value = pure v) :
    quotedItemLine p value = pure (quotedItemText v) := by
  simp [quotedItemLine, h, quotedItemText]

@[simp] theorem entryText_empty (key : String) : entryText key "" = key ++ ":" := rfl

theorem listLines_eq_pure {f : String → m String} {g : String → String} {l : List String}
    (h : ∀ v ∈ l, f v = pure (g v)) (key : String) :
    listLines key f l = pure (listText key g l) := by
  simp [listLines, listText, mapM_eq_pure h, Function.comp_def]

theorem matcherLines_eq_pure (h : ∀ v ∈ s.matcher.texts, p.oneLine v = pure v) (pad : String) :
    matcherLines p pad s = pure (matcherText pad s) := by
  unfold matcherLines matcherText
  split
  · rfl
  · cases hm : s.matcher with
    | one text =>
      have ht := entryLine_eq_pure (h text (by simp [hm, Matcher.texts])) s.key
      simp [ht]
    | many items =>
      have hi := mapM_eq_pure (f := itemLine p) (g := itemText) (l := items) fun v hv =>
        itemLine_eq_pure (h v (by simpa [hm, Matcher.texts] using hv))
      simp [hi, String.append_assoc, Function.comp_def]

theorem selectionLines_eq_pure (hs : p.selection s = pure ())
    (h : ∀ v ∈ s.matcher.texts, p.oneLine v = pure v) (pad : String) :
    selectionLines p pad s = pure (selectionText pad s) := by
  simp [selectionLines, selectionText, hs, matcherLines_eq_pure h, String.append_assoc]

theorem detectionLines_eq_pure (h : p.PassesDetection r) (pad : String) :
    detectionLines p pad r = pure (detectionText pad r) := by
  have hcondition := entryLine_eq_pure (h.value _ List.mem_cons_self) "condition"
  have hselections := mapM_eq_pure (f := selectionLines p pad) (g := selectionText pad)
    (l := r.selections) fun s hs => selectionLines_eq_pure (h.selection s hs)
      (fun v hv => h.value v (List.mem_cons_of_mem _ (List.mem_flatMap.mpr ⟨s, hs, hv⟩))) pad
  simp [detectionLines, detectionText, h.condition, hcondition, hselections, List.flatMap_def]

structure Policy.Passes (p : Policy m) (r : Record) : Prop where
  condition : p.condition r.condition = pure ()
  selection : ∀ s ∈ r.selections, p.selection s = pure ()
  value : ∀ v ∈ r.shownValues, p.oneLine v = pure v

omit [LawfulMonad m] in
theorem Policy.Passes.detection (h : p.Passes r) : p.PassesDetection r :=
  ⟨h.condition, h.selection, fun v hv => h.value v (by simp [Record.shownValues, hv])⟩

theorem ruleLines_eq_pure (h : p.Passes r) : ruleLines p r = pure (ruleText r) := by
  have value {v : String} (hv : v ∈ r.shownValues) (key : String) :=
    entryLine_eq_pure (h.value v hv) key
  have hid := value (v := r.id.getD "") (by simp [Record.shownValues]) "id"
  have hproduct := value (v := r.logType) (by simp [Record.shownValues]) "product"
  have htitle := value (v := r.name) (by simp [Record.shownValues]) "title"
  have hdescription := value (v := r.description) (by simp [Record.shownValues]) "description"
  have hlevel := value (v := Text.lower r.level) (by simp [Record.shownValues]) "level"
  have hstatus := value (v := r.status) (by simp [Record.shownValues]) "status"
  have hauthor := value (v := r.author) (by simp [Record.shownValues]) "author"
  have htags := listLines_eq_pure (f := itemLine p) (g := itemText) (l := r.tags)
    (fun v hv => itemLine_eq_pure (h.value v (by simp [Record.shownValues, hv]))) "tags"
  have hfalse := listLines_eq_pure (f := itemLine p) (g := itemText)
    (l := r.falsePositives)
    (fun v hv => itemLine_eq_pure (h.value v (by simp [Record.shownValues, hv]))) "falsepositives"
  have hreferences := listLines_eq_pure (f := quotedItemLine p) (g := quotedItemText)
    (l := r.references)
    (fun v hv => quotedItemLine_eq_pure (h.value v (by simp [Record.shownValues, hv])))
    "references"
  have hextras := mapM_eq_pure (f := fun e => entryLine p e.1 e.2)
    (g := fun e => entryText e.1 e.2) (l := r.extras.entries) fun e he =>
      value (v := e.2) (by
        have hmem : e.2 ∈ r.extras.values := List.mem_map_of_mem he
        simp [Record.shownValues, hmem]) e.1
  have hdetection := detectionLines_eq_pure h.detection indentation
  by_cases hd : r.description.isEmpty = true
  · simp only [ruleLines, hid, hproduct, htitle, hlevel, hstatus, hauthor, htags, hfalse,
      hreferences, hextras, hdetection, hd, if_true, pure_bind]
    simp only [ruleText, headText, extrasText, hd, if_true, List.append_assoc]
    rfl
  · simp only [ruleLines, hid, hproduct, htitle, hdescription, hlevel, hstatus, hauthor, htags,
      hfalse, hreferences, hextras, hdetection, hd, if_false, pure_bind, map_pure,
      Bool.false_eq_true]
    simp only [ruleText, headText, extrasText, hd, if_false, List.append_assoc,
      Bool.false_eq_true]
    rfl

-- ---------------------------------------------------------------------------
-- The preview
-- ---------------------------------------------------------------------------

theorem preview_passes (h : ∀ v ∈ r.shownValues, Text.isSingleLine v = true) :
    Policy.preview.Passes r where
  condition := rfl
  selection _ _ := rfl
  value v hv := by simp [Policy.preview, h v hv, pure]

theorem preview_eq (h : ∀ v ∈ r.shownValues, Text.isSingleLine v = true) :
    preview r = textOfLines (ruleText r) := by
  rw [preview, ruleLines_eq_pure (preview_passes h)]
  rfl

-- ---------------------------------------------------------------------------
-- The strict writer
-- ---------------------------------------------------------------------------

structure Printable (r : Record) : Prop where
  condition : r.condition.isEmpty = false
  complete : ∀ s ∈ r.selections, s.isComplete = true
  value : ∀ v ∈ r.shownValues, Text.isSingleLine v = true

theorem Printable.passes (h : Printable r) : Policy.strict.Passes r where
  condition := by simp [Policy.strict, h.condition, pure, Except.pure]
  selection s hs := by simp [Policy.strict, h.complete s hs, pure, Except.pure]
  value v hv := by simp [Policy.strict, h.value v hv, pure, Except.pure]

theorem bind_ok {ε α β : Type} {x : Except ε α} {f : α → Except ε β} {b : β} :
    x >>= f = .ok b ↔ ∃ a, x = .ok a ∧ f a = .ok b := by
  cases x <;> simp [bind, Except.bind]

theorem oneLine_ok {w : String} :
    Policy.strict.oneLine v = .ok w ↔ Text.isSingleLine v = true ∧ v = w := by
  cases h : Text.isSingleLine v <;> simp [Policy.strict, h]

theorem isSingleLine_of_bind {α : Type} {f : String → Except WriteError α} {a : α}
    (h : Policy.strict.oneLine v >>= f = .ok a) : Text.isSingleLine v = true := by
  obtain ⟨w, hw, -⟩ := bind_ok.mp h
  exact (oneLine_ok.mp hw).1

theorem exists_ok_of_mapM {ε α β : Type} {f : α → Except ε β} {vs : List α} {ws : List β}
    (h : vs.mapM f = .ok ws) : ∀ v ∈ vs, ∃ w, f v = .ok w := by
  induction vs generalizing ws with
  | nil => simp
  | cons v vs ih =>
    rw [List.mapM_cons] at h
    obtain ⟨w, hw, h⟩ := bind_ok.mp h
    obtain ⟨us, hus, -⟩ := bind_ok.mp h
    intro u hu
    rcases List.mem_cons.mp hu with rfl | hu
    · exact ⟨w, hw⟩
    · exact ih hus u hu

theorem isSingleLine_of_listLines {item : String → Except WriteError String} {vs : List String}
    (hitem : ∀ v w, item v = .ok w → Text.isSingleLine v = true)
    (h : listLines key item vs = .ok ls) : ∀ v ∈ vs, Text.isSingleLine v = true := by
  obtain ⟨ws, hws, -⟩ := bind_ok.mp h
  intro v hv
  obtain ⟨w, hw⟩ := exists_ok_of_mapM hws v hv
  exact hitem v w hw

theorem isSingleLine_of_matcherLines (hkey : s.fieldKey.isEmpty = false)
    (h : matcherLines .strict pad s = .ok ls) :
    ∀ v ∈ s.matcher.texts, Text.isSingleLine v = true := by
  rw [matcherLines, hkey] at h
  simp only [Bool.false_eq_true, if_false] at h
  intro v hv
  cases hm : s.matcher with
  | one text =>
    rw [hm] at h hv
    obtain rfl : v = text := by simpa [Matcher.texts] using hv
    obtain ⟨w, hw, -⟩ := bind_ok.mp h
    exact isSingleLine_of_bind hw
  | many items =>
    rw [hm] at h hv
    obtain ⟨ws, hws, -⟩ := bind_ok.mp h
    obtain ⟨w, hw⟩ := exists_ok_of_mapM hws v hv
    exact isSingleLine_of_bind hw

theorem spec_of_selectionLines (h : selectionLines .strict pad s = .ok ls) :
    s.isComplete = true ∧ ∀ v ∈ s.matcher.texts, Text.isSingleLine v = true := by
  obtain ⟨u, hu, h⟩ := bind_ok.mp h
  obtain ⟨ms, hms, -⟩ := bind_ok.mp h
  have hcomplete : s.isComplete = true := by
    cases hs : s.isComplete with
    | true => rfl
    | false => simp [Policy.strict, hs] at hu
  have hkey : s.fieldKey.isEmpty = false := by
    simp only [Selection.isComplete, Bool.and_eq_true, Bool.not_eq_true'] at hcomplete
    exact hcomplete.1
  exact ⟨hcomplete, isSingleLine_of_matcherLines hkey hms⟩

theorem spec_of_detectionLines (h : detectionLines .strict pad r = .ok ls) :
    r.condition.isEmpty = false ∧ (∀ s ∈ r.selections, s.isComplete = true) ∧
      ∀ v ∈ r.detectionValues, Text.isSingleLine v = true := by
  obtain ⟨u, hu, h⟩ := bind_ok.mp h
  obtain ⟨c, hc, h⟩ := bind_ok.mp h
  obtain ⟨ss, hss, -⟩ := bind_ok.mp h
  have hspec : ∀ s ∈ r.selections, s.isComplete = true ∧
      ∀ v ∈ s.matcher.texts, Text.isSingleLine v = true := fun s hs =>
    have ⟨_, hl⟩ := exists_ok_of_mapM hss s hs
    spec_of_selectionLines hl
  refine ⟨?_, fun s hs => (hspec s hs).1, ?_⟩
  · cases hempty : r.condition.isEmpty with
    | false => rfl
    | true => simp [Policy.strict, hempty] at hu
  · intro v hv
    rcases List.mem_cons.mp hv with rfl | hv
    · exact isSingleLine_of_bind hc
    · obtain ⟨s, hs, hv⟩ := List.mem_flatMap.mp hv
      exact (hspec s hs).2 v hv

theorem isSingleLine_of_description
    (h : (if v.isEmpty then pure [] else List.singleton <$> entryLine .strict key v) = .ok ls) :
    Text.isSingleLine v = true := by
  by_cases he : v.isEmpty = true
  · rw [String.isEmpty_iff.mp he]
    rfl
  · rw [if_neg he] at h
    cases hd : entryLine Policy.strict key v with
    | ok l => exact isSingleLine_of_bind hd
    | error e =>
      rw [hd] at h
      cases h

theorem printable_of_writeLines (h : writeLines r = .ok ls) : Printable r := by
  unfold writeLines ruleLines at h
  obtain ⟨_, hid, h⟩ := bind_ok.mp h
  obtain ⟨_, hproduct, h⟩ := bind_ok.mp h
  obtain ⟨_, htitle, h⟩ := bind_ok.mp h
  -- The description may be left out, so its step has to be brought into the shape of the others.
  have hbind {α : Type} (k : List String → Except WriteError α) (x : Except WriteError (List String)) :
      (if r.description.isEmpty then pure [] >>= k else x >>= k) =
        (if r.description.isEmpty then pure [] else x) >>= k := by
    split <;> rfl
  rw [hbind] at h
  obtain ⟨_, hdescription, h⟩ := bind_ok.mp h
  obtain ⟨_, htags, h⟩ := bind_ok.mp h
  obtain ⟨_, hfalse, h⟩ := bind_ok.mp h
  obtain ⟨_, hlevel, h⟩ := bind_ok.mp h
  obtain ⟨_, hstatus, h⟩ := bind_ok.mp h
  obtain ⟨_, hreferences, h⟩ := bind_ok.mp h
  obtain ⟨_, hauthor, h⟩ := bind_ok.mp h
  obtain ⟨_, hextras, h⟩ := bind_ok.mp h
  obtain ⟨_, hdetection, -⟩ := bind_ok.mp h
  obtain ⟨hcondition, hcomplete, hvalues⟩ := spec_of_detectionLines hdetection
  refine ⟨hcondition, hcomplete, Record.isSingleLine_shownValues (isSingleLine_of_bind hid)
    (fun f => ?_) (fun f => ?_) (fun e he => ?_) hvalues⟩
  · cases f with
    | name => exact isSingleLine_of_bind htitle
    | description => exact isSingleLine_of_description hdescription
    | author => exact isSingleLine_of_bind hauthor
    | logType => exact isSingleLine_of_bind hproduct
    | level =>
      rw [← Text.isSingleLine_lower]
      exact isSingleLine_of_bind hlevel
    | status => exact isSingleLine_of_bind hstatus
  · cases f with
    | tags => exact isSingleLine_of_listLines (fun _ _ => isSingleLine_of_bind) htags
    | references => exact isSingleLine_of_listLines (fun _ _ => isSingleLine_of_bind) hreferences
    | falsePositives => exact isSingleLine_of_listLines (fun _ _ => isSingleLine_of_bind) hfalse
  · obtain ⟨l, hl⟩ := exists_ok_of_mapM hextras e he
    exact isSingleLine_of_bind hl

structure PrintableDetection (r : Record) : Prop where
  condition : r.condition.isEmpty = false
  complete : ∀ s ∈ r.selections, s.isComplete = true
  value : ∀ v ∈ r.detectionValues, Text.isSingleLine v = true

theorem PrintableDetection.passes (h : PrintableDetection r) :
    Policy.strict.PassesDetection r where
  condition := by simp [Policy.strict, h.condition, pure, Except.pure]
  selection s hs := by simp [Policy.strict, h.complete s hs, pure, Except.pure]
  value v hv := by simp [Policy.strict, h.value v hv, pure, Except.pure]

theorem writeDetection_ok_iff {t : String} :
    writeDetection r = .ok t ↔ PrintableDetection r ∧ t = textOfLines (detectionText "" r) := by
  constructor
  · intro h
    cases hl : detectionLines .strict "" r with
    | error e =>
      rw [writeDetection, hl] at h
      cases h
    | ok ls =>
      obtain ⟨hcondition, hcomplete, hvalue⟩ := spec_of_detectionLines hl
      have hp : PrintableDetection r := ⟨hcondition, hcomplete, hvalue⟩
      have hls : detectionLines .strict "" r = .ok (detectionText "" r) :=
        detectionLines_eq_pure hp.passes ""
      rw [writeDetection, hls] at h
      exact ⟨hp, (Except.ok.inj h).symm⟩
  · rintro ⟨hp, rfl⟩
    rw [writeDetection, detectionLines_eq_pure hp.passes]
    rfl

/-- Where the strict writer gives the detection block, the preview of it is the same. -/
theorem previewDetection_eq {t : String} (h : writeDetection r = .ok t) :
    previewDetection r = t := by
  obtain ⟨hp, rfl⟩ := writeDetection_ok_iff.mp h
  have hpasses : Policy.preview.PassesDetection r :=
    ⟨rfl, fun _ _ => rfl, fun v hv => by simp [Policy.preview, hp.value v hv, pure]⟩
  rw [previewDetection, detectionLines_eq_pure hpasses]
  rfl

theorem write_ok_iff {t : String} :
    write r = .ok t ↔ Printable r ∧ t = textOfLines (ruleText r) := by
  constructor
  · intro h
    cases hl : writeLines r with
    | error e =>
      rw [write, hl] at h
      cases h
    | ok ls =>
      have hp := printable_of_writeLines hl
      have hls : writeLines r = .ok (ruleText r) := ruleLines_eq_pure hp.passes
      rw [write, hls] at h
      exact ⟨hp, (Except.ok.inj h).symm⟩
  · rintro ⟨hp, rfl⟩
    rw [write, writeLines, ruleLines_eq_pure hp.passes]
    rfl

end RuleText

end SigmaDesk
