import Mathlib
import SigmaDesk.Check
import SigmaDesk.Proofs.RuleText.Draft

/-!
# What a check that finds nothing says

Values that pass the checks, as text sees them. Names, descriptions and authors have no line break
of any kind; other values are only known to have no line feed and no carriage return.
-/

namespace SigmaDesk.Check

open RuleText (isKey startsKey ruleKeys termFault? refuse_eq_none)
open Text (isBlank isBreak unbroken isSingleLine)

variable {c : Char} {v : String} {catalog : Catalog} {m : Matcher} {modifier : Option String}

theorem accept_eq_none {p : Prop} [Decidable p] {fault : Fault} :
    (if p then none else some fault) = none ↔ p := by
  by_cases h : p <;> simp [h]

theorem forall_ascii {P : Char → Prop} (h : ∀ n, n < 128 → P (Char.ofNat n))
    (hc : c.toNat < 128) : P c := by
  have hp := h c.toNat hc
  rwa [Char.ofNat_toNat] at hp

theorem toNat_lt_of_isAlphanum (h : c.isAlphanum = true) : c.toNat < 128 := by
  have hval : c.toNat = c.val.toNat := rfl
  simp [Char.isAlphanum, Char.isAlpha, Char.isUpper, Char.isLower, Char.isDigit,
    UInt32.le_iff_toNat_le] at h
  omega

theorem toNat_lt_of_isDescriptionChar (h : isDescriptionChar c = true) : c.toNat < 128 := by
  simp only [isDescriptionChar, isNameChar, Bool.or_eq_true, beq_iff_eq] at h
  rcases h with ((((h | rfl) | rfl) | rfl) | rfl) | rfl
  · exact toNat_lt_of_isAlphanum h
  all_goals decide

theorem isDescriptionChar_spec (h : isDescriptionChar c = true) :
    isBreak c = false ∧ c ≠ ':' ∧ ("()|*?".toList.contains c) = false ∧
      (isBlank c = true → c = ' ') :=
  forall_ascii (P := fun c => isDescriptionChar c = true → isBreak c = false ∧ c ≠ ':' ∧
    ("()|*?".toList.contains c) = false ∧ (isBlank c = true → c = ' '))
    (by decide +kernel) (toNat_lt_of_isDescriptionChar h) h

theorem startsKey_of_isAlphanum (h : c.isAlphanum = true ∨ c = '_') : startsKey c = true := by
  rcases h with h | rfl
  · exact forall_ascii (P := fun c => c.isAlphanum = true → startsKey c = true)
      (by decide +kernel) (toNat_lt_of_isAlphanum h) h
  · decide

theorem unbroken_of_all (h : v.toList.all isDescriptionChar = true) : unbroken v = true :=
  Text.unbroken_iff.mpr fun c hc => (isDescriptionChar_spec (List.all_eq_true.mp h c hc)).1

theorem all_isDescriptionChar (h : v.toList.all isNameChar = true) :
    v.toList.all isDescriptionChar = true := by
  rw [List.all_eq_true] at h ⊢
  intro c hc
  simp [isDescriptionChar, h c hc]

structure UnbrokenCatalog (c : Catalog) : Prop where
  logType : ∀ v ∈ c.logTypes, unbroken v = true
  level : ∀ v ∈ c.levels, unbroken v = true
  status : ∀ v ∈ c.statuses, unbroken v = true

theorem unbroken_of_name (h : name v = none) : unbroken v = true := by
  rw [name, refuse_eq_none, accept_eq_none] at h
  obtain ⟨-, hname⟩ := h
  simp only [isName, Bool.and_eq_true] at hname
  exact unbroken_of_all (all_isDescriptionChar hname.2)

theorem unbroken_of_author (h : author v = none) : unbroken v = true := by
  rw [author, refuse_eq_none, accept_eq_none] at h
  obtain ⟨-, hauthor⟩ := h
  simp only [isAuthor, Bool.and_eq_true] at hauthor
  exact unbroken_of_all (all_isDescriptionChar hauthor.2)

theorem unbroken_of_description (h : description v = none) : unbroken v = true := by
  rw [description, accept_eq_none] at h
  simp only [isDescription, Bool.and_eq_true] at h
  exact unbroken_of_all h.2

theorem mem_of_logType (h : logType catalog v = none) : v ∈ catalog.logTypes := by
  rw [logType, refuse_eq_none, accept_eq_none] at h
  exact List.contains_iff_mem.mp h.2

theorem mem_of_status (h : status catalog v = none) : v ∈ catalog.statuses := by
  rw [status, refuse_eq_none, accept_eq_none] at h
  exact List.contains_iff_mem.mp h.2

theorem exists_of_level (h : level catalog v = none) :
    ∃ l ∈ catalog.levels, Text.lower l = Text.lower v := by
  rw [level, refuse_eq_none, accept_eq_none] at h
  exact List.mem_map.mp (List.contains_iff_mem.mp h.2)

theorem unbroken_of_text (hc : UnbrokenCatalog catalog) (f : TextField)
    (h : text catalog f v = none) : unbroken v = true := by
  cases f with
  | name => exact unbroken_of_name h
  | description => exact unbroken_of_description h
  | author => exact unbroken_of_author h
  | logType => exact hc.logType v (mem_of_logType h)
  | level =>
    obtain ⟨l, hl, hlower⟩ := exists_of_level h
    rw [← Text.unbroken_lower, ← hlower, Text.unbroken_lower]
    exact hc.level l hl
  | status => exact hc.status v (mem_of_status h)

theorem isSingleLine_of_item (f : ListField) (h : item catalog f v = none) :
    isSingleLine v = true := by
  cases f with
  | tags =>
    rw [item, tag, refuse_eq_none, accept_eq_none] at h
    exact h.2
  | references => exact accept_eq_none.mp h
  | falsePositives => exact accept_eq_none.mp h

theorem isFieldKey_spec (h : isFieldKey v = true) :
    isKey v = true ∧ '|' ∉ v.toList ∧ isSingleLine v = true := by
  unfold isFieldKey at h
  split at h
  · cases h
  · rename_i c cs hv
    simp only [Bool.and_eq_true, Bool.not_eq_true', List.all_eq_true] at h
    obtain ⟨⟨⟨hblank, hmark⟩, hrest⟩, hlast⟩ := h
    have hmark : c ∉ ":|#'\"-[".toList := by simpa using hmark
    have hrest : ∀ d ∈ cs, d ∉ ":|\r\n".toList := by simpa using hrest
    -- The check rules out more than the reader takes for another construct.
    have hmarks : ":#'\"-".toList ⊆ ":|#'\"-[".toList := by decide
    have hends : ":|".toList ⊆ ":|\r\n".toList ∧ ":|".toList ⊆ ":|#'\"-[".toList := by decide
    have hstart : startsKey c = true := by
      have hc : c ∉ ":#'\"-".toList := fun hmem => hmark (hmarks hmem)
      simpa [startsKey, hblank] using hc
    have hinner : ∀ d ∈ ":|".toList, d ∉ c :: cs := by
      intro d hd hmem
      rcases List.mem_cons.mp hmem with rfl | hmem
      · exact hmark (hends.2 hd)
      · exact hrest d hmem (hends.1 hd)
    have hline : ∀ d ∈ c :: cs, Text.isLineFeedOrReturn d = false := by
      intro d hd
      rcases List.mem_cons.mp hd with rfl | hd
      · cases hfeed : Text.isLineFeedOrReturn d with
        | false => rfl
        | true =>
          rw [Text.isBlank_of_isBreak (Text.isBreak_of_isLineFeedOrReturn hfeed)] at hblank
          cases hblank
      · have hmem := hrest d hd
        simp_all [Text.isLineFeedOrReturn]
    refine ⟨RuleText.isKey_iff.mpr ⟨?_, ?_, ?_⟩, ?_, ?_⟩
    · simpa [hv] using hstart
    · rw [hv]
      exact hinner ':' (by decide)
    · rw [hv]
      intro d hd
      simpa [hd] using hlast
    · rw [hv]
      exact hinner '|' (by decide)
    · rw [isSingleLine, hv, List.all_eq_true]
      intro d hd
      simp [hline d hd]

theorem fieldKey_spec (h : fieldKey v modifier = none) :
    isKey v = true ∧ '|' ∉ v.toList ∧ isSingleLine v = true ∧ ∀ m ∈ modifier, m ∈ modifiers := by
  unfold fieldKey at h
  rw [refuse_eq_none, refuse_eq_none] at h
  obtain ⟨-, hkey, hmodifier⟩ := h
  obtain ⟨hk, hbar, hline⟩ := isFieldKey_spec (by simpa using hkey)
  refine ⟨hk, hbar, hline, ?_⟩
  cases modifier with
  | none => simp
  | some m => simpa using accept_eq_none.mp hmodifier

theorem extra_spec {key value : String} (h : extra key value = none) :
    isKey key = true ∧ key ∉ ruleKeys ∧ value ≠ "" ∧ isSingleLine value = true := by
  rw [extra, refuse_eq_none, refuse_eq_none, accept_eq_none] at h
  obtain ⟨hkey, hvalue, hline⟩ := h
  simp only [Bool.or_eq_true, Bool.not_eq_true', not_or, Bool.not_eq_false] at hkey
  exact ⟨(isFieldKey_spec hkey.1).1, by simpa using hkey.2, by simpa using hvalue, hline⟩

theorem matcher_spec (h : matcher m = none) :
    m.isComplete = true ∧ m ≠ .one "" ∧ ∀ v ∈ m.texts, isSingleLine v = true := by
  rw [matcher, refuse_eq_none, accept_eq_none] at h
  obtain ⟨hcomplete, hlines⟩ := h
  have hcomplete : m.isComplete = true := by simpa using hcomplete
  refine ⟨hcomplete, ?_, ?_⟩
  · rintro rfl
    exact absurd hcomplete (by decide)
  · cases m with
    | one s =>
      have hs : s.isEmpty = false := by simpa [Matcher.isComplete] using hcomplete
      simpa [Matcher.values, Matcher.itemsOf, Matcher.texts, hs] using hlines
    | many items => simpa [Matcher.values, Matcher.texts] using hlines

theorem selectionName_legal (h : selectionName v [] = none) : isSelectionName v = true ∧
    Text.allDigits v.toList = false ∧ reservedNames.contains (Text.lower v) = false := by
  rw [selectionName, refuse_eq_none, refuse_eq_none] at h
  obtain ⟨-, hlegal, -⟩ := h
  simp only [Bool.or_eq_true, Bool.not_eq_true', not_or, Bool.not_eq_false,
    Bool.not_eq_true] at hlegal
  exact ⟨hlegal.1.1, hlegal.1.2, hlegal.2⟩

theorem isSelectionName_spec (h : isSelectionName v = true) :
    (∃ c cs, v.toList = c :: cs ∧ startsKey c = true) ∧
      ∀ c ∈ v.toList, isDescriptionChar c = true ∧ isBlank c = false := by
  unfold isSelectionName at h
  split at h
  · cases h
  · rename_i c cs hv
    simp only [Bool.and_eq_true, Bool.or_eq_true, beq_iff_eq, List.all_eq_true] at h
    obtain ⟨hhead, hrest⟩ := h
    have hall : ∀ d ∈ c :: cs, ((d.isAlphanum = true ∨ d = '_') ∨ d = '.') ∨ d = '-' := by
      intro d hd
      rcases List.mem_cons.mp hd with rfl | hd
      · exact .inl (.inl hhead)
      · exact hrest d hd
    refine ⟨⟨c, cs, hv, startsKey_of_isAlphanum hhead⟩, ?_⟩
    rw [hv]
    intro d hd
    have hclass : isDescriptionChar d = true := by
      rcases hall d hd with ((h | h) | h) | h <;> simp [isDescriptionChar, isNameChar, h]
    refine ⟨hclass, ?_⟩
    cases hb : isBlank d with
    | false => rfl
    | true =>
      obtain rfl := (isDescriptionChar_spec hclass).2.2.2 hb
      exact absurd (hall ' ' hd) (by decide)

theorem isKey_of_selectionName (h : isSelectionName v = true) : isKey v = true := by
  obtain ⟨⟨c, cs, hv, hstart⟩, hall⟩ := isSelectionName_spec h
  refine RuleText.isKey_iff.mpr ⟨?_, ?_, ?_⟩
  · simpa [hv] using hstart
  · exact fun hmem => (isDescriptionChar_spec (hall ':' hmem).1).2.1 rfl
  · exact fun d hd => (hall d (List.mem_of_getLast? hd)).2

theorem termFault?_of_selectionName (h : selectionName v [] = none) : termFault? v = none := by
  obtain ⟨hname, hdigits, hreserved⟩ := selectionName_legal h
  obtain ⟨-, hall⟩ := isSelectionName_spec hname
  -- All words but `1` are reserved, and `1` is all digits.
  have hwords : ∀ w ∈ RuleText.operatorWords ++ RuleText.aggregateWords,
      w = "1" ∨ w ∈ reservedNames := by decide
  refine RuleText.termFault?_eq_none.mpr ⟨fun hmem => ?_, hdigits, fun c hc => ?_⟩
  · rcases hwords _ hmem with hone | hword
    · rw [Text.eq_of_lower_eq (d := '1') (by decide) (by decide) hone] at hdigits
      exact absurd hdigits (by decide)
    · rw [List.contains_iff_mem.mpr hword] at hreserved
      cases hreserved
  · have hmark := (isDescriptionChar_spec (hall c hc).1).2.2.1
    simpa using hmark

/-- A name that passes can be a key of a detection block and a term of its condition. -/
theorem selectionName_spec (h : selectionName v [] = none) :
    isKey v = true ∧ v ≠ "condition" ∧ isTerm v = true ∧ unbroken v = true := by
  obtain ⟨hname, -, hreserved⟩ := selectionName_legal h
  obtain ⟨⟨c, cs, hv, -⟩, hall⟩ := isSelectionName_spec hname
  refine ⟨isKey_of_selectionName hname, ?_, ?_, ?_⟩
  · rintro rfl
    exact absurd hreserved (by decide +kernel)
  · refine RuleText.isTerm_iff.mpr ⟨⟨?_, fun d hd => (hall d hd).2⟩, termFault?_of_selectionName h⟩
    rw [hv]
    exact List.cons_ne_nil c cs
  · exact Text.unbroken_iff.mpr fun d hd => (isDescriptionChar_spec (hall d hd).1).1

end SigmaDesk.Check
