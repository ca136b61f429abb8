import SigmaDesk.Proofs.Check
import SigmaDesk.Proofs.Gate

/-!
# What the gate accepts

The rule for a record that may be handed to a store, said without the checks. The gate finds nothing
wrong with a record exactly if the rule holds of it.
-/

namespace SigmaDesk

namespace Gate

variable {c : Catalog} {r : Record} {ch : Char} {cs : List Char} {v key : String} {m : Matcher}
  {s : Selection}

def AsciiLetter (ch : Char) : Prop := ('a' ≤ ch ∧ ch ≤ 'z') ∨ ('A' ≤ ch ∧ ch ≤ 'Z')

def AsciiDigit (ch : Char) : Prop := '0' ≤ ch ∧ ch ≤ '9'

instance (ch : Char) : Decidable (AsciiDigit ch) :=
  inferInstanceAs (Decidable ('0' ≤ ch ∧ ch ≤ '9'))

def NameChar (ch : Char) : Prop := AsciiLetter ch ∨ AsciiDigit ch ∨ ch ∈ [' ', '_', '-']

def OneLine (v : String) : Prop := '\n' ∉ v.toList ∧ '\r' ∉ v.toList

theorem isAlphanum_iff : ch.isAlphanum = true ↔ AsciiLetter ch ∨ AsciiDigit ch := by
  simp only [Char.isAlphanum, Char.isAlpha, Char.isUpper, Char.isLower, Char.isDigit, AsciiLetter,
    AsciiDigit, Char.le_def, Bool.or_eq_true, Bool.and_eq_true, decide_eq_true_eq, ge_iff_le]
  rw [or_comm (a := _ ∧ _) (b := _ ∧ _)]

theorem isNameChar_iff : Check.isNameChar ch = true ↔ NameChar ch := by
  simp [Check.isNameChar, isAlphanum_iff, NameChar, or_assoc]

theorem isDescriptionChar_iff :
    Check.isDescriptionChar ch = true ↔ NameChar ch ∨ ch ∈ [',', '.'] := by
  simp [Check.isDescriptionChar, isNameChar_iff, or_assoc]

theorem isDigit_iff (h : Check.isDescriptionChar ch = true) :
    Text.isDigit ch = true ↔ AsciiDigit ch :=
  Check.forall_ascii (P := fun ch => Text.isDigit ch = true ↔ AsciiDigit ch)
    (by decide +kernel) (Check.toNat_lt_of_isDescriptionChar h)

theorem isSingleLine_iff : Text.isSingleLine v = true ↔ OneLine v := by
  simp only [Text.isSingleLine, Text.isLineFeedOrReturn, OneLine, List.all_eq_true]
  constructor
  · intro h
    exact ⟨fun hf => absurd (h _ hf) (by decide), fun hr => absurd (h _ hr) (by decide)⟩
  · rintro ⟨hfeed, hreturn⟩ ch hch
    have hne : ch ≠ '\n' ∧ ch ≠ '\r' := ⟨fun he => hfeed (he ▸ hch), fun he => hreturn (he ▸ hch)⟩
    simp [hne]

def TextRule (c : Catalog) (v : String) : TextField → Prop
  | .name => 5 ≤ v.length ∧ v.length ≤ 50 ∧ ∀ ch ∈ v.toList, NameChar ch
  | .description => v.length ≤ 500 ∧ ∀ ch ∈ v.toList, NameChar ch ∨ ch ∈ [',', '.']
  | .author => v ≠ "" ∧ ∀ ch ∈ v.toList, NameChar ch
  | .logType => v ≠ "" ∧ v ∈ c.logTypes
  | .level => v ≠ "" ∧ ∃ l ∈ c.levels, Text.lower l = Text.lower v
  | .status => v ≠ "" ∧ v ∈ c.statuses

def ItemRule (c : Catalog) (v : String) : ListField → Prop
  | .tags => v ≠ "" ∧ c.tagPrefix.toList <+: v.toList ∧ OneLine v
  | .references => OneLine v
  | .falsePositives => OneLine v

structure KeyRule (v : String) : Prop where
  filled : v ≠ ""
  start : ∀ ch ∈ v.toList.head?, Text.isBlank ch = false ∧ ch ∉ ['#', '\'', '"', '-', '[']
  inner : ∀ ch ∈ v.toList, ch ∉ [':', '|', '\r', '\n']
  last : ∀ ch ∈ v.toList.getLast?, Text.isBlank ch = false

structure ExtraRule (key v : String) : Prop where
  legal : KeyRule key
  free : key ∉ ["id", "title", "description", "author", "level", "status", "tags",
    "falsepositives", "references", "logsource", "product", "detection", "condition"]
  filled : v ≠ ""
  line : OneLine v

structure SelectionNameRule (v : String) : Prop where
  start : ∃ ch ∈ v.toList.head?, AsciiLetter ch ∨ AsciiDigit ch ∨ ch = '_'
  chars : ∀ ch ∈ v.toList, AsciiLetter ch ∨ AsciiDigit ch ∨ ch ∈ ['_', '.', '-']
  notNumber : ∃ ch ∈ v.toList, ¬AsciiDigit ch
  notReserved : Text.lower v ∉ ["condition", "and", "or", "not", "all", "any", "of", "them"]

def MatcherRule : Matcher → Prop
  | .one text => text ≠ "" ∧ OneLine text
  | .many items => (∃ v ∈ items, v ≠ "") ∧ ∀ v ∈ items, OneLine v

structure SelectionRule (s : Selection) : Prop where
  name : SelectionNameRule s.name
  field : KeyRule s.fieldKey
  modifier : ∀ m ∈ s.modifier, m ∈ ["contains", "startswith", "endswith", "re", "all"]
  value : MatcherRule s.matcher

structure Acceptable (c : Catalog) (r : Record) : Prop where
  text : ∀ f, TextRule c (r.text f) f
  item : ∀ f, ∀ v ∈ r.items f, ItemRule c v f
  extra : ∀ e ∈ r.extras.entries, ExtraRule e.1 e.2
  some : r.selections ≠ []
  selection : ∀ s ∈ r.selections, SelectionRule s
  distinct : (r.selections.map (·.name)).Nodup
  condition : r.condition.terms ≠ []
  term : ∀ t ∈ r.condition.terms, ∃ s ∈ r.selections, s.name = t

open Check (accept_eq_none)
open RuleText (refuse_eq_none)

theorem text_eq_none (f : TextField) : Check.text c f v = none ↔ TextRule c v f := by
  cases f with
  | name =>
    rw [Check.text, Check.name, refuse_eq_none, accept_eq_none]
    simp only [Check.isName, Bool.and_eq_true, decide_eq_true_eq, List.all_eq_true, isNameChar_iff,
      and_assoc]
    refine and_iff_right_of_imp fun h hempty => ?_
    rw [String.isEmpty_iff.mp hempty] at h
    cases h.1
  | description =>
    rw [Check.text, Check.description, accept_eq_none]
    simp [Check.isDescription, TextRule, isDescriptionChar_iff]
  | author =>
    rw [Check.text, Check.author, refuse_eq_none, accept_eq_none]
    simp [Check.isAuthor, TextRule, isNameChar_iff]
  | logType =>
    rw [Check.text, Check.logType, refuse_eq_none, accept_eq_none]
    simp [Catalog.hasLogType, TextRule]
  | level =>
    rw [Check.text, Check.level, refuse_eq_none, accept_eq_none]
    simp [Catalog.hasLevel, TextRule]
  | status =>
    rw [Check.text, Check.status, refuse_eq_none, accept_eq_none]
    simp [Catalog.hasStatus, TextRule]

theorem item_eq_none (f : ListField) : Check.item c f v = none ↔ ItemRule c v f := by
  cases f with
  | tags =>
    rw [Check.item, Check.tag, refuse_eq_none, accept_eq_none, isSingleLine_iff]
    simp [ItemRule, and_assoc]
  | references => exact accept_eq_none.trans isSingleLine_iff
  | falsePositives => exact accept_eq_none.trans isSingleLine_iff

theorem isFieldKey_iff : Check.isFieldKey v = true ↔ KeyRule v := by
  have hempty : v = "" ↔ v.toList = [] := String.toList_eq_nil_iff.symm
  unfold Check.isFieldKey
  cases hv : v.toList with
  | nil =>
    refine iff_of_false Bool.false_ne_true fun h => h.filled (hempty.mpr hv)
  | cons ch cs =>
    have hlast : (!(ch :: cs).getLast?.any Text.isBlank) = true ↔
        ∀ d ∈ (ch :: cs).getLast?, Text.isBlank d = false := by
      cases (ch :: cs).getLast? <;> simp
    simp only [Bool.and_eq_true, hlast, List.all_eq_true]
    constructor
    · rintro ⟨⟨⟨hblank, hmark⟩, hrest⟩, hlast⟩
      -- A line end is blank, so the start of a key is none.
      have hends : ch ≠ '\r' ∧ ch ≠ '\n' := by
        constructor <;> rintro rfl <;> exact absurd hblank (by decide)
      refine ⟨fun he => by simp [hempty.mp he] at hv, ?_, ?_, hv ▸ hlast⟩
      · rw [hv]
        simp_all
      · rw [hv]
        simp_all
    · rintro ⟨-, hstart, hinner, hlast⟩
      rw [hv] at hstart hinner hlast
      exact ⟨⟨by simp_all, by simp_all⟩, hlast⟩

theorem extra_eq_none : Check.extra key v = none ↔ ExtraRule key v := by
  rw [Check.extra, refuse_eq_none, refuse_eq_none, accept_eq_none, isSingleLine_iff]
  simp only [Bool.or_eq_true, Bool.not_eq_true', not_or, Bool.not_eq_false, isFieldKey_iff,
    List.contains_iff_mem, String.isEmpty_iff]
  constructor
  · rintro ⟨⟨hkey, hfree⟩, hfilled, hline⟩
    exact ⟨hkey, hfree, hfilled, hline⟩
  · rintro ⟨hkey, hfree, hfilled, hline⟩
    exact ⟨⟨hkey, hfree⟩, hfilled, hline⟩

theorem isSelectionName_iff : Check.isSelectionName v = true ↔
    (∃ ch ∈ v.toList.head?, AsciiLetter ch ∨ AsciiDigit ch ∨ ch = '_') ∧
      ∀ ch ∈ v.toList, AsciiLetter ch ∨ AsciiDigit ch ∨ ch ∈ ['_', '.', '-'] := by
  unfold Check.isSelectionName
  cases hv : v.toList with
  | nil => simp
  | cons ch cs =>
    simp only [Bool.and_eq_true, Bool.or_eq_true, beq_iff_eq, List.all_eq_true, isAlphanum_iff]
    simp
    grind

theorem allDigits_eq_false_iff (h : Check.isSelectionName v = true) :
    Text.allDigits v.toList = false ↔ ∃ ch ∈ v.toList, ¬AsciiDigit ch := by
  obtain ⟨⟨ch, cs, hv, -⟩, hall⟩ := Check.isSelectionName_spec h
  have hempty : v.toList.isEmpty = false := by simp [hv]
  rw [Text.allDigits, hempty, Bool.not_false, Bool.true_and, List.all_eq_false]
  refine exists_congr fun d => and_congr_right fun hd => ?_
  rw [isDigit_iff (hall d hd).1]

theorem selectionName_alone_eq_none : Check.selectionName v [] = none ↔ SelectionNameRule v := by
  rw [Check.selectionName, refuse_eq_none, refuse_eq_none]
  simp only [Bool.or_eq_true, Bool.not_eq_true', not_or, Bool.not_eq_false, Bool.not_eq_true,
    String.isEmpty_iff]
  constructor
  · rintro ⟨-, ⟨⟨hname, hdigits⟩, hreserved⟩, -⟩
    obtain ⟨hstart, hchars⟩ := isSelectionName_iff.mp hname
    exact ⟨hstart, hchars, (allDigits_eq_false_iff hname).mp hdigits,
      by simpa [Check.reservedNames] using hreserved⟩
  · rintro ⟨hstart, hchars, hnumber, hreserved⟩
    have hname := isSelectionName_iff.mpr ⟨hstart, hchars⟩
    refine ⟨?_, ⟨⟨hname, (allDigits_eq_false_iff hname).mpr hnumber⟩,
      by simpa [Check.reservedNames] using hreserved⟩, by simp⟩
    rintro rfl
    simp at hstart

theorem fieldKey_eq_none {modifier : Option String} : Check.fieldKey v modifier = none ↔
    KeyRule v ∧ ∀ m ∈ modifier, m ∈ ["contains", "startswith", "endswith", "re", "all"] := by
  unfold Check.fieldKey
  rw [refuse_eq_none, refuse_eq_none, Bool.not_eq_true', Bool.not_eq_false, isFieldKey_iff]
  have hfilled : KeyRule v → ¬v.isEmpty = true := fun h he => h.filled (String.isEmpty_iff.mp he)
  rw [and_iff_right_of_imp fun h => hfilled h.1]
  refine and_congr_right fun _ => ?_
  cases modifier with
  | none => simp
  | some m =>
    rw [accept_eq_none, List.contains_iff_mem]
    simp [modifiers]

theorem matcher_eq_none : Check.matcher m = none ↔ MatcherRule m := by
  rw [Check.matcher, refuse_eq_none, accept_eq_none]
  cases m with
  | one text =>
    simp only [Matcher.isComplete, Matcher.values, Matcher.itemsOf, MatcherRule]
    by_cases hempty : text = ""
    · simp [hempty]
    · simp [hempty, isSingleLine_iff]
  | many items =>
    simp [Matcher.isComplete, Matcher.values, MatcherRule, isSingleLine_iff]

theorem cleanSelection_iff : CleanSelection s ↔ SelectionRule s := by
  constructor
  · rintro ⟨hname, hfield, hvalue⟩
    obtain ⟨hkey, hmodifier⟩ := fieldKey_eq_none.mp hfield
    exact ⟨selectionName_alone_eq_none.mp hname, hkey, hmodifier, matcher_eq_none.mp hvalue⟩
  · rintro ⟨hname, hkey, hmodifier, hvalue⟩
    exact ⟨selectionName_alone_eq_none.mpr hname, fieldKey_eq_none.mpr ⟨hkey, hmodifier⟩,
      matcher_eq_none.mpr hvalue⟩

theorem clean_iff : Clean c r ↔ Acceptable c r := by
  have hcondition : Check.condition r.condition = none ↔ r.condition.terms ≠ [] := by
    rw [Check.condition, refuse_eq_none]
    simp [Condition.isEmpty]
  have hknown : (∀ t ∈ r.condition.terms, t ∈ r.selectionNames) ↔
      ∀ t ∈ r.condition.terms, ∃ s ∈ r.selections, s.name = t := by
    simp [Record.selectionNames]
  constructor
  · rintro ⟨htext, hitem, hextra, hselection, hdistinct, hterms, hsome, hterm⟩
    exact ⟨fun f => (text_eq_none f).mp (htext f), fun f v hv => (item_eq_none f).mp (hitem f v hv),
      fun e he => extra_eq_none.mp (hextra e he), hsome,
      fun s hs => cleanSelection_iff.mp (hselection s hs), hdistinct, hcondition.mp hterms,
      hknown.mp hterm⟩
  · rintro ⟨htext, hitem, hextra, hsome, hselection, hdistinct, hterms, hterm⟩
    exact ⟨fun f => (text_eq_none f).mpr (htext f),
      fun f v hv => (item_eq_none f).mpr (hitem f v hv),
      fun e he => extra_eq_none.mpr (hextra e he),
      fun s hs => cleanSelection_iff.mpr (hselection s hs), hdistinct, hcondition.mpr hterms, hsome,
      hknown.mpr hterm⟩

/-- The gate finds nothing wrong with a record exactly if the rule for records holds of it. -/
theorem failures_eq_nil_iff : (evaluate c r).failures = [] ↔ Acceptable c r := by
  rw [← List.isEmpty_iff, ← Report.submittable, submittable_iff, clean_iff]

end Gate

end SigmaDesk
