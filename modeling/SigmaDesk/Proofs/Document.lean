import SigmaDesk.Document
import SigmaDesk.Proofs.RuleText.Detection

/-!
# Stored documents are read back

A record with a detection that text can keep comes back from its document, also when the document
gives the selections and the condition as values instead of the detection text.
-/

namespace SigmaDesk

def Matcher.value : Matcher → Value
  | .one s => .text s
  | .many items => .list (items.map .text)

def Selection.entry (s : Selection) : Value :=
  .object [("name", .text s.name), ("field_key", .text s.fieldKey), ("value", s.matcher.value),
    ("match_style", .text s.style.text), ("modifier", (s.modifier.map Value.text).getD .null)]

/-- The document with the selections of a record and a condition as values instead of the detection
text. -/
def Document.withDetection (d : Document) (r : Record) (condition : Value) : Document :=
  ((d.erase "detection").insert "selections" (.list (r.selections.map (·.entry)))).insert
    "condition" condition

namespace Value

theorem matcher_value (name : Value) (m : Matcher) :
    Value.matcher name m.style m.value = .ok (.ofMatcher m) := by
  cases m <;> rfl

theorem isNothing_text (s : String) : (text s).isNothing = s.isEmpty := rfl

theorem filter_modifier {modifier : Option String} (h : modifier ≠ some "") :
    (some ((modifier.map text).getD null)).filter (!·.isNothing) = modifier.map text := by
  cases modifier with
  | none => rfl
  | some m =>
    have hne : m.isEmpty = false := by simpa using h
    simp [isNothing_text, hne]

theorem selection_entry {s : Selection} (h : s.modifier ≠ some "") :
    selection s.entry = .ok (.ofSelection s) := by
  have hstyle : Style.ofValue (.text s.matcher.style.text) = .ok s.matcher.style := by
    simp [Style.ofValue]
  have hmatcher := matcher_value (.text s.name) s.matcher
  have hmodifier := filter_modifier h
  simp only [selection, Selection.entry, Selection.style]
  simp [List.lookup_cons, hstyle, hmodifier]
  change HydratedSelection.mk _ _ _ <$> Value.matcher _ s.matcher.style _ = _
  rw [hmatcher]
  rfl

theorem unwrapped_wrapped (vs : List String) : (wrapped vs).unwrapped = .ok vs := by
  cases vs with
  | nil => rfl
  | cons v vs =>
    show Except.ok (((v :: vs).map fun v => object [("value", text v)]).map _) = .ok (v :: vs)
    rw [List.map_map]
    exact congrArg Except.ok (List.map_id _)

end Value

namespace Document

variable {d e : Document} {r : Record} {t : String} {v : Value}

theorem getText_of_get? {key default : String} (h : d.get? key = some v) :
    d.getText key default = v := by
  rw [getText, h, Option.getD_some]

theorem getSomeText_of_get? {key : String} (h : d.get? key = some (.text t)) :
    d.getSomeText key = .text t := by
  rw [getSomeText, getText_of_get? h, Value.isNothing_text]
  split
  · rename_i ht
    rw [String.isEmpty_iff.mp ht]
  · rfl

def metadataKeys : List String :=
  ["id", "_id", "category", "title", "description", "status", "author", "references", "tags",
    "level", "false_positives", "extras"]

/-- A document that has the metadata of a record, and an identifier under no other key. -/
structure Carries (d : Document) (r : Record) : Prop where
  id : d.get? "id" = some (.text (r.id.getD ""))
  otherId : d.get? "_id" = none
  logType : d.get? "category" = some (.text r.logType)
  name : d.get? "title" = some (.text r.name)
  description : d.get? "description" = some (.text r.description)
  status : d.get? "status" = some (.text r.status)
  author : d.get? "author" = some (.text r.author)
  references : d.get? "references" = some (.wrapped r.references)
  tags : d.get? "tags" = some (.wrapped r.tags)
  level : d.get? "level" = some (.text r.level)
  falsePositives : d.get? "false_positives" = some (.wrapped r.falsePositives)
  extras : d.get? "extras" = some (.object (r.extras.mapValues Value.text).entries)

theorem Carries.congr (h : d.Carries r) (hget : ∀ k ∈ metadataKeys, e.get? k = d.get? k) :
    e.Carries r where
  id := (hget "id" (by decide)).trans h.id
  otherId := (hget "_id" (by decide)).trans h.otherId
  logType := (hget "category" (by decide)).trans h.logType
  name := (hget "title" (by decide)).trans h.name
  description := (hget "description" (by decide)).trans h.description
  status := (hget "status" (by decide)).trans h.status
  author := (hget "author" (by decide)).trans h.author
  references := (hget "references" (by decide)).trans h.references
  tags := (hget "tags" (by decide)).trans h.tags
  level := (hget "level" (by decide)).trans h.level
  falsePositives := (hget "false_positives" (by decide)).trans h.falsePositives
  extras := (hget "extras" (by decide)).trans h.extras

theorem Carries.identifier? (h : d.Carries r) (hid : r.id ≠ some "") :
    d.identifier? = r.id.map .text := by
  cases hr : r.id with
  | none =>
    have hget := h.id
    rw [hr] at hget
    simp [Document.identifier?, hget, h.otherId, Value.isNothing_text]
  | some id =>
    have hget := h.id
    have hne : id.isEmpty = false := by simpa using fun he : id = "" => hid (he ▸ hr)
    rw [hr] at hget
    simp [Document.identifier?, hget, Value.isNothing_text, hne]

theorem Carries.extras_eq (h : d.Carries r) : d.extras = .ok r.extras := by
  have hback : (r.extras.mapValues Value.text).mapValues Value.display = r.extras := by
    rw [Table.mapValues_mapValues]
    exact Table.mapValues_eq_self (fun _ => rfl) _
  rw [Document.extras, h.extras, Option.getD_some]
  simp only [Table.ofList_entries, hback]

theorem texts_of_get? {key : String} {vs : List String} (h : d.get? key = some (.wrapped vs)) :
    d.texts key = .ok vs := by
  rw [texts, h, Option.getD_some, Value.unwrapped_wrapped]

theorem Carries.level_eq (h : d.Carries r) (hlevel : Text.lower r.level = r.level) :
    d.level = .ok r.level := by
  rw [Document.level, getSomeText_of_get? h.level]
  simp only [hlevel]

theorem Carries.hydrate_eq (h : d.Carries r) (hlevel : Text.lower r.level = r.level)
    (hid : r.id ≠ some "") (hdetection : d.detection =
      .ok (r.selections.map .ofSelection, r.condition.terms.map .text)) :
    d.hydrate = .ok (.ofRecord r) := by
  simp only [hydrate, hdetection, texts_of_get? h.tags, texts_of_get? h.references,
    texts_of_get? h.falsePositives, h.extras_eq, h.level_eq hlevel, h.identifier? hid,
    getText_of_get? h.name, getText_of_get? h.author, getText_of_get? h.logType,
    getText_of_get? h.status, getSomeText_of_get? h.description]
  rfl

theorem detection_of_text {selections : List Selection} {condition : Condition}
    (h : d.get? "detection" = some (.text t)) (hblank : t.toList.all Text.isBlank = false)
    (hparse : RuleText.parseDetection t = .ok (selections, condition)) :
    d.detection = .ok (selections.map .ofSelection, condition.terms.map .text) := by
  rw [detection, h]
  simp only [hblank, hparse, Bool.false_eq_true, if_false]

theorem mapM_selection_entry {ss : List Selection} (h : ∀ s ∈ ss, s.modifier ≠ some "") :
    (ss.map (·.entry)).mapM Value.selection = .ok (ss.map HydratedSelection.ofSelection) := by
  induction ss with
  | nil => rfl
  | cons s ss ih =>
    rw [List.map_cons, List.mapM_cons, Value.selection_entry (h s List.mem_cons_self),
      ih fun x hx => h x (List.mem_cons_of_mem _ hx)]
    rfl

theorem detection_of_values (hmodifier : ∀ s ∈ r.selections, s.modifier ≠ some "")
    (hdetection : d.get? "detection" = none)
    (hselections : d.get? "selections" = some (.list (r.selections.map (·.entry))))
    (hcondition : d.get? "condition" = some v)
    (hv : v.condition = .ok (r.condition.terms.map .text)) :
    d.detection = .ok (r.selections.map .ofSelection, r.condition.terms.map .text) := by
  have hmembers : (Value.list (r.selections.map (·.entry))).members =
      .ok (r.selections.map (·.entry)) := rfl
  have hmap := mapM_selection_entry hmodifier
  simp only [detection, hdetection, storedDetection, hselections, hcondition, Option.getD_some,
    hmembers, hv]
  change ((r.selections.map (·.entry)).mapM Value.selection >>= _) = _
  rw [hmap]
  rfl

theorem spec_of_document (h : r.document = .ok d) : d.Carries r ∧
    ∃ t, RuleText.writeDetection r = .ok t ∧ d.get? "detection" = some (.text t) := by
  obtain ⟨t, ht, hd⟩ := RuleText.bind_ok.mp h
  obtain rfl := Except.ok.inj hd
  exact ⟨⟨rfl, rfl, rfl, rfl, rfl, rfl, rfl, rfl, rfl, rfl, rfl, rfl⟩, t, ht, rfl⟩

theorem exists_document (h : RuleText.PrintableDetection r) : ∃ d, r.document = .ok d := by
  rw [Record.document, RuleText.writeDetection_ok_iff.mpr ⟨h, rfl⟩]
  exact ⟨_, rfl⟩

theorem not_blank_detectionText (r : Record) :
    (RuleText.textOfLines (RuleText.detectionText "" r)).toList.all Text.isBlank = false := by
  refine List.all_eq_false.mpr ⟨'c', ?_, by decide⟩
  rw [RuleText.detectionText, RuleText.textOfLines, String.toList_ofList, List.map_cons,
    Text.unlines_cons, String.empty_append, RuleText.toList_entryText]
  exact List.mem_append_left _ (List.mem_append_left _ (by decide))

theorem detection_of_document (h : r.Storable) (hd : r.document = .ok d)
    (he : e.get? "detection" = d.get? "detection") :
    e.detection = .ok (r.selections.map .ofSelection, r.condition.terms.map .text) := by
  obtain ⟨-, t, ht, hget⟩ := spec_of_document hd
  obtain ⟨-, rfl⟩ := RuleText.writeDetection_ok_iff.mp ht
  exact detection_of_text (he.trans hget) (not_blank_detectionText r)
    (RuleText.parseDetection_detectionText h)

theorem hydrate_of_document (hlevel : Text.lower r.level = r.level) (hid : r.id ≠ some "")
    (h : r.Storable) (hd : r.document = .ok d) : d.hydrate = .ok (.ofRecord r) :=
  (spec_of_document hd).1.hydrate_eq hlevel hid (detection_of_document h hd rfl)

theorem get?_withId_of_ne {k : String} (hk : k ≠ "id") (id : String) :
    (d.withId id).get? k = d.get? k := Table.get?_insert_of_ne hk

theorem Carries.withId (h : d.Carries r) (id : String) :
    (d.withId id).Carries { r with id := some id } where
  id := Table.get?_insert_self
  otherId := (get?_withId_of_ne (by decide) id).trans h.otherId
  logType := (get?_withId_of_ne (by decide) id).trans h.logType
  name := (get?_withId_of_ne (by decide) id).trans h.name
  description := (get?_withId_of_ne (by decide) id).trans h.description
  status := (get?_withId_of_ne (by decide) id).trans h.status
  author := (get?_withId_of_ne (by decide) id).trans h.author
  references := (get?_withId_of_ne (by decide) id).trans h.references
  tags := (get?_withId_of_ne (by decide) id).trans h.tags
  level := (get?_withId_of_ne (by decide) id).trans h.level
  falsePositives := (get?_withId_of_ne (by decide) id).trans h.falsePositives
  extras := (get?_withId_of_ne (by decide) id).trans h.extras

/-- A document that is kept under an identifier comes back as the record with that identifier. -/
theorem hydrate_withId {id : String} (hlevel : Text.lower r.level = r.level) (hid : id ≠ "")
    (h : r.Storable) (hd : r.document = .ok d) :
    (d.withId id).hydrate = .ok (.ofRecord { r with id := some id }) := by
  have hdetection := detection_of_document h hd (get?_withId_of_ne (k := "detection") (by decide) id)
  exact ((spec_of_document hd).1.withId id).hydrate_eq hlevel (by simpa using hid) hdetection

theorem modifier_ne_of_storable {s : Selection} (h : s.Storable) : s.modifier ≠ some "" := by
  intro hm
  exact (RuleText.modifier_spec (h.field.modifier "" (by simp [hm]))).1 rfl

theorem hydrate_withDetection (hlevel : Text.lower r.level = r.level) (hid : r.id ≠ some "")
    (h : r.Storable) (hd : r.document = .ok d)
    (hv : v.condition = .ok (r.condition.terms.map .text)) :
    (d.withDetection r v).hydrate = .ok (.ofRecord r) := by
  have hother {k : String} (hcondition : k ≠ "condition") (hselections : k ≠ "selections") :
      (d.withDetection r v).get? k = if k = "detection" then none else d.get? k := by
    rw [withDetection, Table.get?_insert_of_ne hcondition, Table.get?_insert_of_ne hselections,
      Table.get?_erase]
  have hmetadata : ∀ k ∈ metadataKeys, (d.withDetection r v).get? k = d.get? k := by
    have hkeys : ∀ k ∈ metadataKeys, k ≠ "condition" ∧ k ≠ "selections" ∧ k ≠ "detection" := by
      decide
    intro k hk
    obtain ⟨hcondition, hselections, hdetection⟩ := hkeys k hk
    rw [hother hcondition hselections, if_neg hdetection]
  refine ((spec_of_document hd).1.congr hmetadata).hydrate_eq hlevel hid ?_
  refine detection_of_values (v := v) (fun s hs => modifier_ne_of_storable (h.selection s hs))
    (hother (by decide) (by decide)) ?_ Table.get?_insert_self hv
  rw [withDetection, Table.get?_insert_of_ne (by decide), Table.get?_insert_self]

theorem condition_text (h : ∀ t ∈ r.condition.terms, isTerm t = true) :
    (Value.text r.condition.text).condition = .ok (r.condition.terms.map .text) := by
  have hwords : Text.words r.condition.text.toList = r.condition.terms.map String.toList :=
    RuleText.words_conditionText h
  rw [Value.condition, hwords, List.map_map]
  simp [Function.comp_def]

/-- A record whose detection text can keep has a document, and comes back from it. It comes back as
well from the document that has its selections and its condition as values, whether the condition is
given as a text or as terms. -/
theorem hydrate_document (hlevel : Text.lower r.level = r.level) (hid : r.id ≠ some "")
    (h : r.Storable) :
    ∃ d, r.document = .ok d ∧ d.hydrate = .ok (.ofRecord r) ∧
      (d.withDetection r (.text r.condition.text)).hydrate = .ok (.ofRecord r) ∧
      (d.withDetection r (.list (r.condition.terms.map .text))).hydrate = .ok (.ofRecord r) := by
  obtain ⟨d, hd⟩ := exists_document (RuleText.printableDetection_of_storable h)
  exact ⟨d, hd, hydrate_of_document hlevel hid h hd,
    hydrate_withDetection hlevel hid h hd (condition_text h.term),
    hydrate_withDetection hlevel hid h hd rfl⟩

def archived : Record where
  id := "rule-1"
  name := "two\nlines"
  level := "high"
  tags := ["", "a\u2028b"]
  selections :=
    [{ name := "run key", fieldKey := "Image", modifier := "endswith", matcher := .many ["", "[a"] },
      { name := "later", fieldKey := "CommandLine", matcher := .one " - x: #" }]
  condition := ⟨["run", "later"]⟩
  extras := ⟨[("any key:", "\r\n"), ("", "x")], by decide⟩

theorem hydrate_document_archived :
    (Text.lower archived.level = archived.level ∧ archived.id ≠ some "" ∧ archived.Storable) ∧
      ∃ d, archived.document = .ok d ∧ d.hydrate = .ok (.ofRecord archived) ∧
        (d.withDetection archived (.text "run later")).hydrate = .ok (.ofRecord archived) ∧
        (d.withDetection archived (.list [.text "run", .text "later"])).hydrate =
          .ok (.ofRecord archived) := by
  have hlevel : Text.lower archived.level = archived.level := by decide +kernel
  have hid : archived.id ≠ some "" := by decide
  have hstorable : archived.Storable := by decide +kernel
  exact ⟨⟨hlevel, hid, hstorable⟩, hydrate_document hlevel hid hstorable⟩

end Document

end SigmaDesk
