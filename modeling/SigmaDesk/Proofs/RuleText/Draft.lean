import SigmaDesk.Proofs.RuleText.Written

/-!
# Drafts

The records that text can carry. A record is readable when reading some text can give it. A draft is
a readable record whose pass-through keys and single values are not empty; its condition may be
empty and a selection may be blank.
-/

namespace SigmaDesk

open RuleText (isKey ruleKeys termFault?)
open Text (unbroken)

-- ---------------------------------------------------------------------------
-- The texts of a record
-- ---------------------------------------------------------------------------

namespace Selection

/-- The texts of a selection, its modifier apart, which is one of a fixed set. -/
def strings (s : Selection) : List String := s.name :: s.fieldKey :: s.matcher.texts

def IsBlank (s : Selection) : Prop := s = { name := s.name }

instance (s : Selection) : Decidable s.IsBlank :=
  inferInstanceAs (Decidable (s = { name := s.name }))

/-- A field that text can name: the part before the bar of a key, and a modifier that is known. -/
structure HasField (s : Selection) : Prop where
  key : isKey s.fieldKey = true
  noBar : '|' ∉ s.fieldKey.toList
  modifier : ∀ m ∈ s.modifier, m ∈ modifiers

theorem hasField_iff {s : Selection} : s.HasField ↔
    isKey s.fieldKey = true ∧ '|' ∉ s.fieldKey.toList ∧ ∀ m ∈ s.modifier, m ∈ modifiers :=
  ⟨fun h => ⟨h.key, h.noBar, h.modifier⟩, fun h => ⟨h.1, h.2.1, h.2.2⟩⟩

instance (s : Selection) : Decidable s.HasField := decidable_of_iff' _ hasField_iff

structure Readable (s : Selection) : Prop where
  name : isKey s.name = true
  notCondition : s.name ≠ "condition"
  matcher : s.IsBlank ∨ s.HasField

theorem readable_iff {s : Selection} : s.Readable ↔
    isKey s.name = true ∧ s.name ≠ "condition" ∧ (s.IsBlank ∨ s.HasField) :=
  ⟨fun h => ⟨h.name, h.notCondition, h.matcher⟩, fun h => ⟨h.1, h.2.1, h.2.2⟩⟩

instance (s : Selection) : Decidable s.Readable := decidable_of_iff' _ readable_iff

/-- A selection that flat text carries: its name is followed by a field, and not by one that reads as
the condition. -/
structure Flat (s : Selection) : Prop where
  filled : ¬s.IsBlank
  notCondition : s.key ≠ "condition"

end Selection

/-- A word that can be a condition term. -/
def isTerm (t : String) : Bool :=
  !t.isEmpty && t.toList.all (!Text.isBlank ·) && (termFault? t).isNone

namespace Record

def strings (r : Record) : List String :=
  r.id.toList ++ [r.name, r.description, r.author, r.logType, r.level, r.status] ++ r.tags ++
    r.references ++ r.falsePositives ++ r.selections.flatMap (·.strings) ++ r.condition.terms ++
    r.extras.keys ++ r.extras.values

def Unbroken (r : Record) : Prop := ∀ v ∈ r.strings, unbroken v = true

instance (r : Record) : Decidable r.Unbroken :=
  inferInstanceAs (Decidable (∀ v ∈ r.strings, unbroken v = true))

structure Readable (r : Record) : Prop where
  unbroken : r.Unbroken
  id : r.id ≠ some ""
  level : Text.lower r.level = r.level
  extra : ∀ k ∈ r.extras.keys, isKey k = true ∧ k ∉ ruleKeys
  selection : ∀ s ∈ r.selections, s.Readable
  distinct : r.selectionNames.Nodup
  term : ∀ t ∈ r.condition.terms, isTerm t = true

/-- A record that comes back from its own text. -/
structure Draft (r : Record) : Prop extends Readable r where
  extraValue : ∀ v ∈ r.extras.values, v ≠ ""
  value : ∀ s ∈ r.selections, s.IsBlank ∨ s.matcher ≠ .one ""

theorem draft_iff {r : Record} : r.Draft ↔
    (r.Unbroken ∧ r.id ≠ some "" ∧ Text.lower r.level = r.level ∧
      (∀ k ∈ r.extras.keys, isKey k = true ∧ k ∉ ruleKeys) ∧ (∀ s ∈ r.selections, s.Readable) ∧
      r.selectionNames.Nodup ∧ ∀ t ∈ r.condition.terms, isTerm t = true) ∧
      (∀ v ∈ r.extras.values, v ≠ "") ∧ ∀ s ∈ r.selections, s.IsBlank ∨ s.matcher ≠ .one "" :=
  ⟨fun h => ⟨⟨h.unbroken, h.id, h.level, h.extra, h.selection, h.distinct, h.term⟩,
      h.extraValue, h.value⟩,
    fun ⟨⟨h₁, h₂, h₃, h₄, h₅, h₆, h₇⟩, h₈, h₉⟩ => ⟨⟨h₁, h₂, h₃, h₄, h₅, h₆, h₇⟩, h₈, h₉⟩⟩

instance (r : Record) : Decidable r.Draft := decidable_of_iff' _ draft_iff

end Record

namespace Record

theorem unbroken_iff {r : Record} : r.Unbroken ↔
    unbroken (r.id.getD "") = true ∧ (∀ f, unbroken (r.text f) = true) ∧
      (∀ f, ∀ v ∈ r.items f, unbroken v = true) ∧
      (∀ s ∈ r.selections, ∀ v ∈ s.strings, unbroken v = true) ∧
      (∀ t ∈ r.condition.terms, unbroken t = true) ∧
      (∀ k ∈ r.extras.keys, unbroken k = true) ∧ ∀ v ∈ r.extras.values, unbroken v = true := by
  constructor
  · intro h
    refine ⟨?_, fun f => h _ ?_, fun f v hv => h v ?_, fun s hs v hv => h v ?_,
      fun t ht => h t ?_, fun k hk => h k ?_, fun v hv => h v ?_⟩
    · cases hid : r.id with
      | none => rfl
      | some id => exact h id (by simp [strings, hid])
    · cases f <;> simp [strings, text]
    · cases f <;> simp_all [strings, items]
    · have hmem : v ∈ r.selections.flatMap (·.strings) := List.mem_flatMap.mpr ⟨s, hs, hv⟩
      simp only [strings, List.mem_append, hmem, or_true, true_or]
    · simp [strings, ht]
    · simp [strings, hk]
    · simp [strings, hv]
  · rintro ⟨hid, htext, hitem, hselection, hterm, hkey, hvalue⟩ v hv
    simp only [strings, List.mem_append] at hv
    rcases hv with (((((((hv | hv) | hv) | hv) | hv) | hv) | hv) | hv) | hv
    · obtain ⟨id, hr, rfl⟩ : ∃ id, r.id = some id ∧ v = id := by
        cases hr : r.id <;> simp_all
      simpa [hr] using hid
    · simp only [List.mem_cons, List.not_mem_nil, or_false] at hv
      rcases hv with rfl | rfl | rfl | rfl | rfl | rfl
      · exact htext .name
      · exact htext .description
      · exact htext .author
      · exact htext .logType
      · exact htext .level
      · exact htext .status
    · exact hitem .tags v hv
    · exact hitem .references v hv
    · exact hitem .falsePositives v hv
    · obtain ⟨s, hs, hv⟩ := List.mem_flatMap.mp hv
      exact hselection s hs v hv
    · exact hterm v hv
    · exact hkey v hv
    · exact hvalue v hv

/-- A record has no line break if what it shows has none, nor its names, keys and terms. -/
theorem unbroken_of_shownValues {r : Record} (value : ∀ v ∈ r.shownValues, unbroken v = true)
    (selection : ∀ s ∈ r.selections, unbroken s.name = true ∧ unbroken s.fieldKey = true)
    (term : ∀ t ∈ r.condition.terms, unbroken t = true)
    (extra : ∀ k ∈ r.extras.keys, unbroken k = true) : r.Unbroken := by
  refine unbroken_iff.mpr ⟨value _ (by simp [shownValues]), fun f => ?_, fun f v hv => value v ?_,
    fun s hs v hv => ?_, term, extra, fun v hv => value v (by simp [shownValues, hv])⟩
  · cases f with
    | level =>
      rw [← Text.unbroken_lower]
      exact value _ (by simp [shownValues, text])
    | _ => exact value _ (by simp [shownValues, text])
  · cases f <;> simp_all [shownValues, items]
  · rcases List.mem_cons.mp hv with rfl | hv
    · exact (selection s hs).1
    · rcases List.mem_cons.mp hv with rfl | hv
      · exact (selection s hs).2
      · have hmem : v ∈ r.selections.flatMap (·.matcher.texts) := List.mem_flatMap.mpr ⟨s, hs, hv⟩
        exact value v (by simp only [shownValues, detectionValues, List.mem_append, List.mem_cons,
          hmem, or_true])

theorem distinct_addSelection {r : Record} {s : Selection} (h : r.selectionNames.Nodup)
    (hnew : s.name ∉ r.selectionNames) :
    ({ r with selections := r.selections ++ [s] } : Record).selectionNames.Nodup := by
  have hnames : ({ r with selections := r.selections ++ [s] } : Record).selectionNames =
      r.selectionNames ++ [s.name] := by simp [selectionNames]
  rw [hnames, List.nodup_append]
  refine ⟨h, by simp, ?_⟩
  rintro a ha b hb rfl
  exact hnew (List.mem_singleton.mp hb ▸ ha)

end Record

namespace RuleText

open Text (isBlank isBreak)

variable {s : Selection} {r : Record} {terms : List String} {t : String}

-- ---------------------------------------------------------------------------
-- Identifiers
-- ---------------------------------------------------------------------------

theorem getD_identifier? (v : String) : (identifier? v).getD "" = v := by
  unfold identifier?
  split
  · rename_i h
    exact (String.isEmpty_iff.mp h).symm
  · rfl

theorem identifier?_ne_empty (v : String) : identifier? v ≠ some "" := by
  unfold identifier?
  split
  · nofun
  · rename_i hne
    intro heq
    exact hne (by rw [Option.some.inj heq]; rfl)

theorem identifier?_getD {id : Option String} (h : id ≠ some "") :
    identifier? (id.getD "") = id := by
  cases id with
  | none => rfl
  | some id =>
    have hne : id.isEmpty = false := by simpa using h
    simp [identifier?, hne]

-- ---------------------------------------------------------------------------
-- Fields
-- ---------------------------------------------------------------------------

theorem modifier_spec {m : String} (h : m ∈ modifiers) :
    m ≠ "" ∧ unbroken m = true ∧ ∀ c ∈ m.toList, isBlank c = false ∧ c ≠ '|' ∧ c ≠ ':' := by
  have hall : ∀ m ∈ modifiers, m ≠ "" ∧ unbroken m = true ∧
      m.toList.all (fun c => !isBlank c && c != '|' && c != ':') = true := by decide
  obtain ⟨hne, hunbroken, hsolid⟩ := hall m h
  refine ⟨hne, hunbroken, fun c hc => ?_⟩
  simpa [and_assoc] using List.all_eq_true.mp hsolid c hc

theorem isEmpty_fieldKey (h : s.HasField) : s.fieldKey.isEmpty = false := by
  simpa using ne_empty_of_isKey h.key

theorem key_of_hasField (h : s.HasField) : s.key = s.fieldKey ∧ s.modifier = none ∨
    ∃ m ∈ modifiers, s.modifier = some m ∧ s.key = s.fieldKey ++ "|" ++ m := by
  cases hm : s.modifier with
  | none => exact .inl ⟨by simp [Selection.key, hm], rfl⟩
  | some m =>
    have hmem : m ∈ modifiers := h.modifier m (by simp [hm])
    exact .inr ⟨m, hmem, rfl, by simp [Selection.key, hm, (modifier_spec hmem).1]⟩

theorem key_eq_condition_iff (h : s.HasField) :
    s.key = "condition" ↔ s.fieldKey = "condition" ∧ s.modifier = none := by
  rcases key_of_hasField h with ⟨hk, hnone⟩ | ⟨m, -, hsome, hk⟩
  · rw [hk]
    exact (and_iff_left hnone).symm
  · refine iff_of_false (fun hcondition => ?_) fun ⟨_, hnone⟩ => ?_
    · have hbar : '|' ∈ s.key.toList := by simp [hk]
      rw [hcondition] at hbar
      exact absurd hbar (by decide)
    · cases hsome.symm.trans hnone

theorem isKey_key (h : s.HasField) : isKey s.key = true := by
  rcases key_of_hasField h with ⟨hk, -⟩ | ⟨m, hm, -, hk⟩
  · rw [hk]
    exact h.key
  · obtain ⟨hne, -, hsolid⟩ := modifier_spec hm
    obtain ⟨hhead, hcolon, -⟩ := isKey_iff.mp h.key
    obtain ⟨c, cs, hc, -⟩ := exists_cons_of_isKey h.key
    have hlist : s.key.toList = (s.fieldKey.toList ++ ['|']) ++ m.toList := by simp [hk]
    refine isKey_iff.mpr ⟨?_, ?_, ?_⟩
    · rw [hlist, hc]
      simpa [hc] using hhead
    · rw [hlist, List.mem_append, List.mem_append, List.mem_singleton]
      rintro ((hd | hd) | hd)
      · exact hcolon hd
      · exact absurd hd (by decide)
      · exact (hsolid _ hd).2.2 rfl
    · rw [hlist]
      exact Text.last_append (by simpa using hne) fun d hd =>
        (hsolid d (List.mem_of_getLast? hd)).1

theorem flat_iff (h : s.HasField) :
    s.Flat ↔ ¬(s.fieldKey = "condition" ∧ s.modifier = none) := by
  rw [← key_eq_condition_iff h]
  refine ⟨Selection.Flat.notCondition, fun hkey => ⟨fun hblank => ?_, hkey⟩⟩
  have hempty : s.fieldKey = "" := by rw [hblank]
  exact ne_empty_of_isKey h.key hempty

theorem unbroken_key (h : s.HasField) (hu : unbroken s.fieldKey = true) :
    unbroken s.key = true := by
  rcases key_of_hasField h with ⟨hk, -⟩ | ⟨m, hm, -, hk⟩
  · rwa [hk]
  · rw [hk]
    exact unbroken_append (unbroken_append hu (by decide)) (modifier_spec hm).2.1

theorem splitModifier_bar {field m : String} (htrim : Text.trim field.toList = field.toList)
    (hbar : '|' ∉ field.toList) (hfield : field ≠ "") (hm : m ≠ "") :
    Scan.splitModifier (field ++ "|" ++ m) =
      if m.toList.contains '|' then .error (.chainedModifiers (field ++ "|" ++ m))
      else if modifiers.contains m then .ok (field, some m) else .error (.unsupportedModifier m) := by
  have hbefore : ∀ d ∈ field.toList, (d != '|') = true := fun d hd => by
    simpa using fun he : d = '|' => hbar (he ▸ hd)
  have hlist : (field ++ "|" ++ m).toList = field.toList ++ '|' :: m.toList := by simp
  have htake : (field ++ "|" ++ m).toList.takeWhile (· != '|') = field.toList := by
    rw [hlist, List.takeWhile_append_of_pos hbefore]
    simp
  have hdrop : ((field ++ "|" ++ m).toList.dropWhile (· != '|')).drop 1 = m.toList := by
    rw [hlist, List.dropWhile_append_of_pos hbefore]
    simp
  have hne : field.isEmpty = false := by simpa using hfield
  have hempty : m.toList.isEmpty = false := by simpa using hm
  simp only [Scan.splitModifier, htake, hdrop, htrim, String.ofList_toList, hne, hempty,
    Bool.false_eq_true, if_false]

theorem splitModifier_key (h : s.HasField) :
    Scan.splitModifier s.key = .ok (s.fieldKey, s.modifier) := by
  have htrim : Text.trim s.fieldKey.toList = s.fieldKey.toList := (trimmed_of_isKey h.key).trim_eq
  have hne := isEmpty_fieldKey h
  rcases key_of_hasField h with ⟨hk, hnone⟩ | ⟨m, hm, hsome, hk⟩
  · have hbefore : ∀ d ∈ s.fieldKey.toList, (d != '|') = true := fun d hd => by
      simpa using fun he : d = '|' => h.noBar (he ▸ hd)
    have htake : s.key.toList.takeWhile (· != '|') = s.fieldKey.toList := by
      rw [hk, ← List.append_nil s.fieldKey.toList, List.takeWhile_append_of_pos hbefore]
      simp
    have hdrop : s.key.toList.dropWhile (· != '|') = [] := by
      rw [hk, ← List.append_nil s.fieldKey.toList, List.dropWhile_append_of_pos hbefore]
      simp
    simp only [Scan.splitModifier, htake, hdrop, htrim, String.ofList_toList, hne, hnone,
      Bool.false_eq_true, if_false, List.drop_nil, List.isEmpty_nil, if_true]
  · obtain ⟨hmne, -, hsolid⟩ := modifier_spec hm
    have hbar : m.toList.contains '|' = false := by
      cases hb : m.toList.contains '|' with
      | false => rfl
      | true => exact absurd rfl (hsolid '|' (List.contains_iff_mem.mp hb)).2.1
    rw [hk, splitModifier_bar htrim h.noBar (ne_empty_of_isKey h.key) hmne, hbar, hsome]
    simp only [List.contains_iff_mem.mpr hm, Bool.false_eq_true, if_false, if_true]

-- ---------------------------------------------------------------------------
-- Conditions
-- ---------------------------------------------------------------------------

theorem refuse_eq_none {α : Type} {p : Prop} [Decidable p] {fault : α} {rest : Option α} :
    (if p then some fault else rest) = none ↔ ¬p ∧ rest = none := by
  by_cases h : p <;> simp [h]

theorem termFault?_eq_none : termFault? t = none ↔
    Text.lower t ∉ operatorWords ++ aggregateWords ∧ Text.allDigits t.toList = false ∧
      ∀ c ∈ t.toList, c ∉ "()|*?".toList := by
  simp only [termFault?, refuse_eq_none, List.contains_iff_mem, Bool.or_eq_true, not_or,
    List.mem_append, List.any_eq_true, Bool.not_eq_true, and_assoc, not_exists, not_and, and_true]

theorem isTerm_iff : isTerm t = true ↔
    Text.IsWord t.toList ∧ termFault? t = none := by
  simp only [isTerm, Bool.and_eq_true, Bool.not_eq_true', Option.isNone_iff_eq_none,
    List.all_eq_true]
  constructor
  · rintro ⟨⟨hne, hsolid⟩, hfault⟩
    exact ⟨⟨by simpa using hne, hsolid⟩, hfault⟩
  · rintro ⟨⟨hne, hsolid⟩, hfault⟩
    exact ⟨⟨by simpa using hne, hsolid⟩, hfault⟩

theorem toList_conditionText (terms : List String) :
    (Condition.text ⟨terms⟩).toList = [' '].intercalate (terms.map String.toList) :=
  String.toList_intercalate

theorem words_conditionText (h : ∀ t ∈ terms, isTerm t = true) :
    Text.words (Condition.text ⟨terms⟩).toList = terms.map String.toList := by
  rw [toList_conditionText]
  refine Text.words_intercalate fun w hw => ?_
  obtain ⟨t, ht, rfl⟩ := List.mem_map.mp hw
  exact (isTerm_iff.mp (h t ht)).1

theorem isTerm_of_conditionTerms {value : List Char} (h : conditionTerms value = .ok terms) :
    ∀ t ∈ terms, isTerm t = true := by
  unfold conditionTerms at h
  simp only at h
  split at h
  · cases h
  · rename_i hfault
    obtain rfl := Except.ok.inj h
    intro t ht
    have hnone := List.findSome?_eq_none_iff.mp hfault t ht
    obtain ⟨w, hw, rfl⟩ := List.mem_map.mp ht
    refine isTerm_iff.mpr ⟨?_, hnone⟩
    rw [String.toList_ofList]
    exact Text.isWord_of_mem_words hw

theorem conditionTerms_valueText_iff {v : String} : conditionTerms (valueText v) = .ok terms ↔
    terms = (Text.words v.toList).map String.ofList ∧ ∀ t ∈ terms, isTerm t = true := by
  have hunquote : unquote (valueText v) = v.toList := by
    have hs := scalar_valueText v
    rw [← hs, scalar, String.toList_ofList, ← scalar, hs]
  constructor
  · intro h
    refine ⟨?_, isTerm_of_conditionTerms h⟩
    simp only [conditionTerms, hunquote] at h
    split at h
    · cases h
    · exact (Except.ok.inj h).symm
  · rintro ⟨rfl, h⟩
    have hfault : ((Text.words v.toList).map String.ofList).findSome? termFault? = none :=
      List.findSome?_eq_none_iff.mpr fun t ht => (isTerm_iff.mp (h t ht)).2
    simp only [conditionTerms, hunquote, hfault]

theorem conditionTerms_valueText (h : ∀ t ∈ terms, isTerm t = true) :
    conditionTerms (valueText (Condition.text ⟨terms⟩)) = .ok terms :=
  conditionTerms_valueText_iff.mpr ⟨by simp [words_conditionText h], h⟩

theorem isTerm_iff_read :
    isTerm t = true ↔ ∃ value terms, conditionTerms value = .ok terms ∧ t ∈ terms := by
  constructor
  · intro h
    have hterms : ∀ u ∈ [t], isTerm u = true := by simpa using h
    have hread := conditionTerms_valueText hterms
    exact ⟨_, [t], hread, List.mem_singleton_self t⟩
  · rintro ⟨value, terms, hread, ht⟩
    exact isTerm_of_conditionTerms hread t ht

theorem unbroken_of_isTerm (h : isTerm t = true) : unbroken t = true :=
  Text.unbroken_of_isWord (isTerm_iff.mp h).1

theorem unbroken_conditionText (h : ∀ t ∈ terms, unbroken t = true) :
    unbroken (Condition.text ⟨terms⟩) = true := by
  rw [Text.unbroken_iff, toList_conditionText]
  induction terms with
  | nil => simp
  | cons t ts ih =>
    have ht : ∀ c ∈ t.toList, isBreak c = false := Text.unbroken_iff.mp (h t (by simp))
    have hts := ih fun u hu => h u (by simp [hu])
    cases ts with
    | nil => simpa using ht
    | cons u us =>
      intro c hc
      rw [List.map_cons, List.map_cons, List.intercalate_cons_cons] at hc
      rcases List.mem_append.mp hc with hc | hc
      · rcases List.mem_append.mp hc with hc | hc
        · exact ht c hc
        · obtain rfl := List.mem_singleton.mp hc
          decide
      · exact hts c hc

-- ---------------------------------------------------------------------------
-- The text of a readable record keeps its lines
-- ---------------------------------------------------------------------------

theorem unbroken_texts (h : ∀ v ∈ s.strings, unbroken v = true) :
    ∀ v ∈ s.matcher.texts, unbroken v = true :=
  fun v hv => h v (List.mem_cons_of_mem _ (List.mem_cons_of_mem _ hv))

theorem isSingleLine_of_unbroken (h : r.Unbroken) :
    ∀ v ∈ r.shownValues, Text.isSingleLine v = true := by
  obtain ⟨hid, htext, hitem, hselection, hterm, -, hvalue⟩ := Record.unbroken_iff.mp h
  refine Record.isSingleLine_shownValues (Text.isSingleLine_of_unbroken hid)
    (fun f => Text.isSingleLine_of_unbroken (htext f))
    (fun f v hv => Text.isSingleLine_of_unbroken (hitem f v hv))
    (fun e he => Text.isSingleLine_of_unbroken (hvalue e.2 (List.mem_map_of_mem he))) ?_
  intro v hv
  rcases List.mem_cons.mp hv with rfl | hv
  · exact Text.isSingleLine_of_unbroken (unbroken_conditionText hterm)
  · obtain ⟨s, hs, hv⟩ := List.mem_flatMap.mp hv
    exact Text.isSingleLine_of_unbroken (unbroken_texts (hselection s hs) v hv)

theorem unbroken_listText {key : String} {f : String → String} {vs : List String}
    (hk : unbroken key = true) (h : ∀ v ∈ vs, unbroken (f v) = true) :
    ∀ l ∈ listText key f vs, unbroken l = true := by
  intro l hl
  rcases List.mem_cons.mp hl with rfl | hl
  · exact unbroken_entryText hk rfl
  · obtain ⟨v, hv, rfl⟩ := List.mem_map.mp hl
    exact unbroken_append (by decide) (h v hv)

theorem unbroken_selectionText {pad : String} (hp : unbroken pad = true)
    (hkey : s.fieldKey ≠ "" → unbroken s.key = true) (h : ∀ v ∈ s.strings, unbroken v = true) :
    ∀ l ∈ selectionText pad s, unbroken l = true := by
  have hpad : unbroken (pad ++ indentation) = true := unbroken_append hp (by decide)
  intro l hl
  rcases List.mem_cons.mp hl with rfl | hl
  · exact unbroken_append hp (unbroken_entryText (h s.name (by simp [Selection.strings])) rfl)
  · unfold matcherText at hl
    split at hl
    · simp at hl
    · rename_i hfield
      have hkey : unbroken s.key = true := hkey (by simpa using hfield)
      split at hl
      · rename_i text hm
        obtain rfl := List.mem_singleton.mp hl
        have htext := unbroken_texts h text (by simp [hm, Matcher.texts])
        exact unbroken_append hpad (unbroken_entryText hkey htext)
      · rename_i items hm
        rcases List.mem_cons.mp hl with rfl | hl
        · exact unbroken_append hpad (unbroken_entryText hkey rfl)
        · obtain ⟨v, hv, rfl⟩ := List.mem_map.mp hl
          have hitem := unbroken_texts h v (by simpa [hm, Matcher.texts] using hv)
          exact unbroken_append (unbroken_append hpad (by decide)) (unbroken_itemText hitem)

theorem unbroken_key_of_readable (hs : s.Readable) (h : ∀ v ∈ s.strings, unbroken v = true)
    (hne : s.fieldKey ≠ "") : unbroken s.key = true := by
  rcases hs.matcher with hblank | hf
  · exact absurd (by rw [hblank]) hne
  · exact unbroken_key hf (h s.fieldKey (by simp [Selection.strings]))

theorem unbroken_detectionText {pad : String} (hp : unbroken pad = true) (h : r.Readable) :
    ∀ l ∈ detectionText pad r, unbroken l = true := by
  obtain ⟨-, -, -, hselection, hterm, -, -⟩ := Record.unbroken_iff.mp h.unbroken
  intro l hl
  rcases List.mem_cons.mp hl with rfl | hl
  · exact unbroken_append hp (unbroken_entryText (by decide) (unbroken_conditionText hterm))
  · obtain ⟨s, hs, hl⟩ := List.mem_flatMap.mp hl
    exact unbroken_selectionText hp
      (unbroken_key_of_readable (h.selection s hs) (hselection s hs)) (hselection s hs) l hl

theorem unbroken_openingLines (h : r.Unbroken) (described : Bool) :
    ∀ l ∈ openingLines described r, unbroken l = true := by
  obtain ⟨hid, htext, -⟩ := Record.unbroken_iff.mp h
  have hdescription : ∀ l ∈ (if described then [entryText "description" r.description] else []),
      unbroken l = true := by
    split
    · exact List.forall_mem_singleton.mpr (unbroken_entryText (by decide) (htext .description))
    · simp
  simp only [openingLines, List.forall_mem_append, List.forall_mem_cons]
  refine ⟨⟨?_, ?_, ?_, ?_, by simp⟩, hdescription⟩
  · exact unbroken_entryText (by decide) hid
  · exact unbroken_entryText (by decide) (by decide)
  · exact unbroken_append (by decide) (unbroken_entryText (by decide) (htext .logType))
  · exact unbroken_entryText (by decide) (htext .name)

theorem unbroken_listsText (h : r.Unbroken) : ∀ l ∈ listsText r, unbroken l = true := by
  obtain ⟨-, htext, hitem, -⟩ := Record.unbroken_iff.mp h
  have hlevel : unbroken (Text.lower r.level) = true := by
    rw [Text.unbroken_lower]
    exact htext .level
  have htags : ∀ l ∈ listText "tags" itemText r.tags, unbroken l = true :=
    unbroken_listText (by decide) fun v hv => unbroken_itemText (hitem .tags v hv)
  have hfalse : ∀ l ∈ listText "falsepositives" itemText r.falsePositives, unbroken l = true :=
    unbroken_listText (by decide) fun v hv => unbroken_itemText (hitem .falsePositives v hv)
  have hreferences : ∀ l ∈ listText "references" quotedItemText r.references, unbroken l = true :=
    unbroken_listText (by decide) fun v hv => unbroken_quotedItemText (hitem .references v hv)
  simp only [listsText, List.forall_mem_append, List.forall_mem_cons]
  refine ⟨⟨⟨⟨htags, hfalse⟩, ?_, ?_, by simp⟩, hreferences⟩, ?_, by simp⟩
  · exact unbroken_entryText (by decide) hlevel
  · exact unbroken_entryText (by decide) (htext .status)
  · exact unbroken_entryText (by decide) (htext .author)

theorem unbroken_headText (h : r.Unbroken) : ∀ l ∈ headText r, unbroken l = true := by
  rw [headText_eq]
  exact List.forall_mem_append.mpr ⟨unbroken_openingLines h _, unbroken_listsText h⟩

theorem unbroken_extrasText (h : r.Unbroken) :
    ∀ l ∈ extrasText r.extras.entries, unbroken l = true := by
  obtain ⟨-, -, -, -, -, hkey, hvalue⟩ := Record.unbroken_iff.mp h
  intro l hl
  obtain ⟨e, he, rfl⟩ := List.mem_map.mp hl
  exact unbroken_entryText (hkey e.1 (List.mem_map_of_mem he))
    (hvalue e.2 (List.mem_map_of_mem he))

theorem unbroken_ruleText (h : r.Readable) : ∀ l ∈ ruleText r, unbroken l = true := by
  simp only [ruleText, List.forall_mem_append, List.forall_mem_cons]
  exact ⟨⟨unbroken_headText h.unbroken, unbroken_extrasText h.unbroken⟩,
    unbroken_entryText (by decide) (by decide), unbroken_detectionText (by decide) h⟩

end RuleText

end SigmaDesk
