import Mathlib.Tactic.MkIffOfInductiveProp
import SigmaDesk.Proofs.RuleText.Scalar

/-!
# Lines are read back as they were written

The writer makes three forms of lines: a key with a value, a list item, and an item that is quoted
whatever it holds. Each is read as what was written, behind any number of spaces.
-/

namespace SigmaDesk.RuleText

open Text (Trimmed isBlank isBreak unbroken)

variable {key value v pad l : String} {body : List Char} {k : Nat}

/-- A text that a line can carry as its key: it is not empty, has no colon, starts with no blank and
no mark of another construct, and ends with no blank. -/
def isKey (s : String) : Bool :=
  s.toList.head?.any startsKey && !s.toList.contains ':' && !s.toList.getLast?.any isBlank

theorem isKey_iff : isKey key = true ↔
    key.toList.head?.any startsKey = true ∧ ':' ∉ key.toList ∧
      ∀ c, key.toList.getLast? = some c → isBlank c = false := by
  cases h : key.toList.getLast? <;> simp [isKey, h, and_assoc]

theorem not_isBlank_of_startsKey {c : Char} (h : startsKey c = true) : isBlank c = false := by
  simp only [startsKey, Bool.and_eq_true, Bool.not_eq_true'] at h
  exact h.1

theorem ne_of_startsKey {c d : Char} (h : startsKey c = true) (hd : d ∈ ":#'\"-".toList) :
    c ≠ d := by
  rintro rfl
  simp only [startsKey, Bool.and_eq_true, Bool.not_eq_true'] at h
  rw [List.contains_iff_mem.mpr hd] at h
  exact absurd h.2 (by decide)

theorem exists_cons_of_isKey (h : isKey key = true) :
    ∃ c cs, key.toList = c :: cs ∧ startsKey c = true := by
  have hh := (isKey_iff.mp h).1
  cases hk : key.toList with
  | nil => simp [hk] at hh
  | cons c cs => exact ⟨c, cs, rfl, by simpa [hk] using hh⟩

theorem ne_empty_of_isKey (h : isKey key = true) : key ≠ "" := by
  rintro rfl
  cases h

theorem trimmed_of_isKey (h : isKey key = true) : Trimmed key.toList := by
  obtain ⟨c, cs, hkey, hc⟩ := exists_cons_of_isKey h
  refine ⟨?_, (isKey_iff.mp h).2.2⟩
  rw [hkey]
  rintro d hd
  obtain rfl := Option.some.inj hd
  exact not_isBlank_of_startsKey hc

/-- A text that begins a line without being taken for another construct, or for an indentation: a
key is one, but so is a text that the line then does not give back. -/
@[mk_iff]
structure Bare (s : String) : Prop where
  trimmed : Trimmed s.toList
  notComment : s.toList.head? ≠ some '#'
  notItem : ['-', ' '].isPrefixOf s.toList = false

instance (s : String) : Decidable (Bare s) := decidable_of_iff' _ (bare_iff s)

theorem bare_of_isKey (h : isKey key = true) : Bare key := by
  obtain ⟨c, cs, hkey, hc⟩ := exists_cons_of_isKey h
  have hdash : '-' ≠ c := (ne_of_startsKey hc (by decide)).symm
  refine ⟨trimmed_of_isKey h, ?_, ?_⟩
  · rw [hkey]
    exact fun heq => ne_of_startsKey hc (by decide) (Option.some.inj heq)
  · simp [hkey, List.isPrefixOf, hdash]

def entryText (key value : String) : String :=
  if value.isEmpty then key ++ ":" else key ++ ": " ++ bareOrQuoted value

def itemText (value : String) : String :=
  "- " ++ if value.isEmpty then "''" else bareOrQuoted value

def quotedItemText (value : String) : String := "- " ++ String.ofList (quote value.toList)

def valueText (value : String) : List Char :=
  if value.isEmpty then [] else (bareOrQuoted value).toList

@[simp] theorem valueText_empty : valueText "" = [] := rfl

theorem valueText_of_ne (h : value ≠ "") : valueText value = (bareOrQuoted value).toList := by
  rw [valueText, if_neg (by simpa using h)]

theorem isEmpty_valueText (h : value ≠ "") : (valueText value).isEmpty = false := by
  rw [valueText_of_ne h]
  simpa using bareOrQuoted_ne_nil h

@[simp] theorem scalar_valueText (value : String) : scalar (valueText value) = value := by
  by_cases h : value = ""
  · subst h
    rfl
  · rw [valueText_of_ne h, scalar_bareOrQuoted]

theorem inlineList?_valueText (h : value ≠ "") : inlineList? (valueText value) = .ok none := by
  rw [valueText_of_ne h, inlineList?, flowList?_bareOrQuoted]

theorem toList_entryText (key value : String) : (entryText key value).toList =
    key.toList ++ ':' :: (if value.isEmpty then [] else ' ' :: valueText value) := by
  unfold entryText
  split
  · simp
  · rename_i h
    simp [valueText, h]

/-- What is left of a line that means something when the blanks around it are gone. -/
structure IsBody (body : List Char) : Prop where
  ne_nil : body ≠ []
  trimmed : Trimmed body
  not_comment : body.head? ≠ some '#'
  not_mark : body ≠ ['-', '-', '-']

theorem ofChars_of_isBody (h : IsBody body) (k : Nat) :
    RawLine.ofChars (List.replicate k ' ' ++ body) = .line ⟨k, body⟩ := by
  have hright : Text.trimRight (List.replicate k ' ' ++ body) = List.replicate k ' ' ++ body :=
    Text.trimRight_of_last (Text.last_append h.ne_nil h.trimmed.last)
  have hleft : Text.trimLeft (List.replicate k ' ' ++ body) = body := by
    rw [Text.trimLeft, List.dropWhile_append_of_pos fun c hc => ?_]
    · exact Text.trimLeft_of_head h.trimmed.head
    · rw [List.eq_of_mem_replicate hc]
      decide
  obtain ⟨c, cs, rfl⟩ := List.exists_cons_of_ne_nil h.ne_nil
  have hc : isBlank c = false := h.trimmed.head c rfl
  have htab : ((List.replicate k ' ' ++ c :: cs).head? == some '\t') = false := by
    cases k with
    | zero =>
      have hne : c ≠ '\t' := by
        rintro rfl
        exact absurd hc (by decide)
      simpa using hne
    | succ k => rfl
  have hspaces : (List.replicate k ' ' ++ c :: cs).takeWhile (· == ' ') = List.replicate k ' ' := by
    have hne : c ≠ ' ' := by
      rintro rfl
      exact absurd hc (by decide)
    rw [List.takeWhile_append_of_pos fun d hd => by simp [List.eq_of_mem_replicate hd]]
    simp [hne]
  have hmark : (c :: cs == ['-', '-', '-']) = false := beq_eq_false_iff_ne.mpr h.not_mark
  have hcomment : ((c :: cs).head? == some '#') = false := beq_eq_false_iff_ne.mpr h.not_comment
  simp only [RawLine.ofChars, hright, hleft, hspaces, hmark, htab, hcomment, List.isEmpty_cons,
    Bool.or_self, Bool.false_eq_true, if_false, List.length_replicate]

def Says (l : String) (indent : Nat) (content : Content) : Prop :=
  ∃ body, RawLine.ofChars l.toList = .line ⟨indent, body⟩ ∧ Content.ofBody body = content

theorem Says.of_body {content : Content} (hp : pad.toList = List.replicate k ' ')
    (hb : IsBody l.toList) (hc : Content.ofBody l.toList = content) :
    Says (pad ++ l) k content :=
  ⟨l.toList, by rw [String.toList_append, hp, ofChars_of_isBody hb], hc⟩

theorem isBody_entryText (hk : Bare key) (value : String) :
    IsBody (entryText key value).toList := by
  have hhead : (entryText key value).toList.head? = some (key.toList.head?.getD ':') := by
    rw [toList_entryText]
    cases key.toList <;> rfl
  refine ⟨?_, ⟨?_, ?_⟩, ?_, ?_⟩
  · intro h
    simp [h] at hhead
  · rw [hhead]
    rintro d hd
    obtain rfl := Option.some.inj hd
    cases hkey : key.toList with
    | nil => decide
    | cons c cs => exact hk.trimmed.head c (by rw [hkey]; rfl)
  · rw [toList_entryText]
    refine Text.last_append (by simp) ?_
    by_cases hv : value = ""
    · intro d hd
      obtain rfl : ':' = d := by simpa [hv] using hd
      decide
    · rw [if_neg (by simpa using hv), valueText_of_ne hv]
      exact Text.last_append (l := [':', ' ']) (bareOrQuoted_ne_nil hv)
        (trimmed_bareOrQuoted value).last
  · rw [hhead]
    intro h
    cases hkey : key.toList with
    | nil => simp [hkey] at h
    | cons c cs =>
      rw [hkey] at h
      exact hk.notComment (by rw [hkey]; exact h)
  · intro h
    have hcolon : ':' ∈ (entryText key value).toList := by simp [toList_entryText]
    rw [h] at hcolon
    exact absurd hcolon (by decide)

theorem content_entryText (hk : isKey key = true) (value : String) :
    Content.ofBody (entryText key value).toList = .entry key (valueText value) := by
  obtain ⟨c, cs, hkey, hc⟩ := exists_cons_of_isKey hk
  obtain ⟨-, hcolon, -⟩ := isKey_iff.mp hk
  have hdash : c ≠ '-' := ne_of_startsKey hc (by decide)
  have hnone : ∀ d ∈ key.toList, (d != ':') = true := fun d hd => by
    simpa using fun he : d = ':' => hcolon (he ▸ hd)
  have hbefore : (entryText key value).toList.takeWhile (· != ':') = key.toList := by
    rw [toList_entryText, List.takeWhile_append_of_pos hnone]
    simp
  have hafter : (entryText key value).toList.dropWhile (· != ':') =
      ':' :: (if value.isEmpty then [] else ' ' :: valueText value) := by
    rw [toList_entryText, List.dropWhile_append_of_pos hnone]
    simp
  have hsplit : splitEntry? (entryText key value).toList = some (key.toList, valueText value) := by
    have hstart : (entryText key value).toList.head?.any startsKey = true := by
      rw [toList_entryText, hkey]
      simpa using hc
    have htrim : Text.trim key.toList = key.toList := (trimmed_of_isKey hk).trim_eq
    unfold splitEntry?
    rw [if_pos hstart, hafter, hbefore, htrim]
    by_cases hv : value = ""
    · simp [hv]
    · have hval : Text.trim (' ' :: valueText value) = valueText value := by
        rw [valueText_of_ne hv]
        exact Text.trim_append_of_blank (b := [' ']) (List.forall_mem_singleton.mpr rfl)
          (trimmed_bareOrQuoted value) (bareOrQuoted_ne_nil hv)
      simp [hv, hval]
  have hitem : ((entryText key value).toList == ['-'] ||
      ['-', ' '].isPrefixOf (entryText key value).toList) = false := by
    rw [toList_entryText, hkey]
    simp [hdash, List.isPrefixOf, Ne.symm hdash]
  simp only [Content.ofBody, hitem, hsplit, String.ofList_toList, Bool.false_eq_true, if_false]

theorem says_entryText (hp : pad.toList = List.replicate k ' ') (hk : isKey key = true)
    (value : String) : Says (pad ++ entryText key value) k (.entry key (valueText value)) :=
  .of_body hp (isBody_entryText (bare_of_isKey hk) value) (content_entryText hk value)

theorem not_item_entryText (hk : Bare key) (value : String) :
    ((entryText key value).toList == ['-'] ||
      ['-', ' '].isPrefixOf (entryText key value).toList) = false := by
  have hitem := hk.notItem
  rw [toList_entryText]
  match hkey : key.toList with
  | [] => rfl
  | [c] => cases hc : c == '-' <;> simp_all [List.isPrefixOf]
  | c :: d :: cs =>
    rw [hkey] at hitem
    simpa [List.isPrefixOf] using hitem

/-- What begins a line without being a key is taken for another key that has a value, where a colon
inside it has a space or a tab behind it, and for nothing otherwise. -/
theorem content_of_not_isKey (hk : Bare key) (h : isKey key = false) (value : String) :
    Content.ofBody (entryText key value).toList = .other ∨
      (hasPair ':' ' ' key.toList || hasPair ':' '\t' key.toList) = true ∧
        ∃ k v, Content.ofBody (entryText key value).toList = .entry k v ∧ v ≠ [] := by
  have hitem := not_item_entryText hk value
  simp only [Content.ofBody, hitem, Bool.false_eq_true, if_false]
  by_cases hstart : (entryText key value).toList.head?.any startsKey = true
  · -- The line starts as a key does, so it is a colon inside that makes it none.
    have hcolon : ':' ∈ key.toList := by
      by_contra hcolon
      refine Bool.false_ne_true (h.symm.trans (isKey_iff.mpr ⟨?_, hcolon, hk.trimmed.last⟩))
      rw [toList_entryText] at hstart
      cases hkey : key.toList with
      | nil => simp [hkey, startsKey] at hstart
      | cons c cs => simpa [hkey] using hstart
    -- The reader stops at the first colon, and takes it only with a space or a tab behind it.
    obtain ⟨pre, post, hkey, hpre⟩ := List.eq_append_cons_of_mem hcolon
    have hnone : ∀ d ∈ pre, (d != ':') = true := fun d hd => by
      simpa using fun he : d = ':' => hpre (he ▸ hd)
    have hafter : (entryText key value).toList.dropWhile (· != ':') =
        ':' :: (post ++ ':' :: (if value.isEmpty then [] else ' ' :: valueText value)) := by
      rw [toList_entryText, hkey, List.append_assoc, List.dropWhile_append_of_pos hnone]
      simp
    unfold splitEntry?
    rw [if_pos hstart, hafter]
    cases post with
    | nil => simp
    | cons c post =>
      by_cases hc : c = ' ' ∨ c = '\t'
      · refine .inr ⟨?_, ?_⟩
        · rw [hkey, Bool.or_eq_true]
          rcases hc with rfl | rfl
          · exact .inl (hasPair_append pre post)
          · exact .inr (hasPair_append pre post)
        · have hsep : (c == ' ' || c == '\t') = true := by simpa using hc
          simp only [List.cons_append, List.head?_cons, Option.all_some, hsep, if_true]
          refine ⟨_, _, rfl, fun hnil => ?_⟩
          have hblank := Text.isBlank_of_trim_eq_nil hnil
            (show ':' ∈ _ from List.mem_cons_of_mem _ (List.mem_append_right _ List.mem_cons_self))
          exact absurd hblank (by decide)
      · have hsep : (c == ' ' || c == '\t') = false := by simpa using hc
        simp [hsep]
  · have hnone : splitEntry? (entryText key value).toList = none := by
      unfold splitEntry?
      rw [if_neg hstart]
    rw [hnone]
    exact .inl rfl

theorem says_item {w : String} (hp : pad.toList = List.replicate k ' ') (hne : w.toList ≠ [])
    (ht : Trimmed w.toList) : Says (pad ++ ("- " ++ w)) k (.item w.toList) := by
  have hlist : ("- " ++ w).toList = '-' :: ' ' :: w.toList := by simp
  refine .of_body hp ⟨?_, ⟨?_, ?_⟩, ?_, ?_⟩ ?_
  · simp
  · rw [hlist]
    rintro d hd
    obtain rfl : '-' = d := by simpa using hd
    decide
  · rw [hlist]
    exact Text.last_append (l := ['-', ' ']) hne ht.last
  · simp [hlist]
  · simp [hlist]
  · have htrim : Text.trim (' ' :: w.toList) = w.toList :=
      Text.trim_append_of_blank (b := [' ']) (List.forall_mem_singleton.mpr rfl) ht hne
    simp [hlist, Content.ofBody, htrim]

theorem says_itemText (hp : pad.toList = List.replicate k ' ') (value : String) :
    ∃ w, Says (pad ++ itemText value) k (.item w) ∧ scalar w = value := by
  by_cases hv : value = ""
  · subst hv
    refine ⟨"''".toList, says_item hp (by decide) ⟨?_, ?_⟩, rfl⟩
    · rintro d hd
      obtain rfl : '\'' = d := by simpa using hd
      decide
    · rintro d hd
      obtain rfl : '\'' = d := by simpa using hd
      decide
  · refine ⟨(bareOrQuoted value).toList, ?_, scalar_bareOrQuoted value⟩
    rw [itemText, if_neg (by simpa using hv)]
    exact says_item hp (bareOrQuoted_ne_nil hv) (trimmed_bareOrQuoted value)

theorem says_quotedItemText (hp : pad.toList = List.replicate k ' ') (value : String) :
    ∃ w, Says (pad ++ quotedItemText value) k (.item w) ∧ scalar w = value := by
  refine ⟨quote value.toList, ?_, scalar_quote value⟩
  have := says_item (w := String.ofList (quote value.toList)) hp (by simp [quote])
    (by simpa using trimmed_quote value.toList)
  simpa [quotedItemText] using this

theorem unbroken_append (hv : unbroken v = true) (hl : unbroken l = true) :
    unbroken (v ++ l) = true := by
  rw [Text.unbroken_iff] at hv hl ⊢
  intro c hc
  rcases List.mem_append.mp (String.toList_append ▸ hc) with hc | hc
  · exact hv c hc
  · exact hl c hc

theorem unbroken_entryText (hk : unbroken key = true) (hv : unbroken value = true) :
    unbroken (entryText key value) = true := by
  unfold entryText
  split
  · exact unbroken_append hk (by decide)
  · exact unbroken_append (unbroken_append hk (by decide)) (unbroken_bareOrQuoted hv)

theorem unbroken_itemText (hv : unbroken value = true) : unbroken (itemText value) = true := by
  refine unbroken_append (by decide) ?_
  split
  · decide
  · exact unbroken_bareOrQuoted hv

theorem unbroken_quotedItemText (hv : unbroken value = true) :
    unbroken (quotedItemText value) = true := by
  refine unbroken_append (by decide) ?_
  rw [Text.unbroken_iff, String.toList_ofList]
  exact fun c hc => not_isBreak_quote hv hc

end SigmaDesk.RuleText
