import SigmaDesk.Proofs.RuleText.Parsed
import SigmaDesk.Proofs.RuleText.RoundTrip
import SigmaDesk.Proofs.RuleText.Shown

/-!
# A preview gives what it shows, or is refused

Names and keys stand in a preview without quotes. Where they can be told from the other constructs
of a text, the preview is read as what it shows, or it is refused.
-/

namespace SigmaDesk

open RuleText (Bare hasPair shownValue ruleKeys)
open Text (unbroken)

namespace RuleText

/-- A bare text without a colon in front of a space or a tab, which would end a key. -/
structure Solid (s : String) : Prop extends Bare s where
  noPair : (hasPair ':' ' ' s.toList || hasPair ':' '\t' s.toList) = false

theorem solid_iff {s : String} : Solid s ↔
    Bare s ∧ (hasPair ':' ' ' s.toList || hasPair ':' '\t' s.toList) = false :=
  ⟨fun h => ⟨h.toBare, h.noPair⟩, fun ⟨hb, hp⟩ => ⟨hb, hp⟩⟩

instance (s : String) : Decidable (Solid s) := decidable_of_iff' _ solid_iff

end RuleText

@[mk_iff]
structure Selection.LegibleField (s : Selection) : Prop where
  key : RuleText.Solid s.key
  unbroken : unbroken s.key = true
  trimmed : Text.trim s.fieldKey.toList = s.fieldKey.toList
  noBar : '|' ∉ s.fieldKey.toList
  modifier : s.modifier ≠ some ""

instance (s : Selection) : Decidable s.LegibleField :=
  decidable_of_iff' _ (Selection.legibleField_iff s)

/-- A record whose preview can be told apart into its names, keys and values: none of what is shown
has a line break, and no name or key reads as something else. -/
@[mk_iff]
structure Record.Legible (r : Record) : Prop where
  name : ∀ s ∈ r.selections, Bare s.name ∧ unbroken s.name = true
  field : ∀ s ∈ r.selections, s.fieldKey ≠ "" → s.LegibleField
  extra : ∀ k ∈ r.extras.keys, RuleText.Solid k ∧ unbroken k = true ∧ k ∉ ruleKeys
  value : ∀ v ∈ r.shown.shownValues, unbroken v = true
  condition : unbroken (shownValue r.condition.text) = true

instance (r : Record) : Decidable r.Legible := decidable_of_iff' _ (Record.legible_iff r)

namespace RuleText

open Scan (start)

variable {s t u : Scan} {l key name value pad : String} {ls : List String} {r q : Record}
  {seen : List String} {sel : Selection} {how : Setting} {header : Option Nat} {k : Nat}
  {layout : Layout}

-- ---------------------------------------------------------------------------
-- Lines that are read
-- ---------------------------------------------------------------------------

theorem says_of_bare {content : Content} (hp : pad.toList = List.replicate k ' ') (hb : Bare key)
    (hc : Content.ofBody (entryText key value).toList = content) :
    Says (pad ++ entryText key value) k content := .of_body hp (isBody_entryText hb value) hc

theorem content_of_solid (hk : Solid key) (h : isKey key = false) (value : String) :
    Content.ofBody (entryText key value).toList = .other := by
  rcases content_of_not_isKey hk.toBare h value with hother | ⟨hpair, -⟩
  · exact hother
  · cases hk.noPair.symm.trans hpair

theorem Outside.isKey_of_read (h : Outside s r seen) (hk : Solid key)
    (he : s.read (entryText key value).toList = .ok t) : isKey key = true := by
  by_contra hkey
  have hsays := says_of_bare (show "".toList = List.replicate 0 ' ' from rfl) hk.toBare
    (content_of_solid hk (Bool.eq_false_iff.mpr hkey) value)
  rw [String.empty_append] at hsays
  obtain ⟨ln, hindent, hcontent, hread⟩ := read_of_says hsays
  obtain ⟨target, hline⟩ := h.line hindent
  rw [hread, hline, Scan.topLine, hcontent] at he
  cases he

theorem extras_of_reads {es : List (String × String)}
    (hkey : ∀ e ∈ es, Solid e.1 ∧ e.1 ∉ ruleKeys) (hnew : (es.map Prod.fst).Nodup)
    (hseen : ∀ e ∈ es, e.1 ∉ seen) (h : Reads (top r seen none) (extrasText es) t) :
    ∀ e ∈ es, isKey e.1 = true ∧ e.2 ≠ "" := by
  induction es generalizing r seen with
  | nil => exact List.forall_mem_nil _
  | cons e es ih =>
    obtain ⟨key, value⟩ := e
    obtain ⟨hsolid, hrule⟩ := hkey (key, value) List.mem_cons_self
    obtain ⟨hfresh, hrest⟩ := List.nodup_cons.mp hnew
    cases h with
    | cons head tail =>
      have hk : isKey key = true := (Outside.between r seen none).isKey_of_read hsolid head
      have hread := (Outside.between r seen none).read_extra .asWritten hk
        (hseen (key, value) List.mem_cons_self) (ofName_of_not_mem hrule) value
      by_cases hv : value = ""
      · rw [if_pos hv] at hread
        cases hread.symm.trans head
      · rw [if_neg hv] at hread
        obtain rfl := Except.ok.inj (hread.symm.trans head)
        refine List.forall_mem_cons.mpr ⟨⟨hk, hv⟩, ih (fun e he => hkey e (List.mem_cons_of_mem _ he))
          hrest (fun e he => ?_) tail⟩
        have hne : e.1 ≠ key := fun heq => hfresh (List.mem_map.mpr ⟨e, he, heq⟩)
        simp [hne, hseen e (List.mem_cons_of_mem _ he)]

-- ---------------------------------------------------------------------------
-- Selections that are read
-- ---------------------------------------------------------------------------

theorem InDetection.name_of_read (h : InDetection how header k layout s r)
    (hp : pad.toList = List.replicate k ' ') (hb : Bare name)
    (he : s.read (how.set (pad ++ entryText name "")).toList = .ok t) :
    isKey name = true ∧ name ≠ "condition" ∧ name ∉ r.selectionNames := by
  cases hk : isKey name with
  | false =>
    -- What is no key is no entry, or one with a value, and a name has none.
    rcases content_of_not_isKey hb hk "" with hother | ⟨-, k', v, hentry, hv⟩
    · obtain ⟨ln, hindent, hcontent, hread⟩ := read_of_says (how.keeps (says_of_bare hp hb hother))
      rw [hread, line_of_block h.frame h.block (Nat.le_refl k) hindent, Scan.detectionLine,
        hcontent] at he
      cases he
    · obtain ⟨ln, hindent, hcontent, hread⟩ := read_of_says (how.keeps (says_of_bare hp hb hentry))
      have hne : v.isEmpty = false := by simpa using hv
      rw [hread, h.line_entry hindent hcontent] at he
      split at he
      · cases he
      · simp [Scan.openSelection, hne] at he
  | true =>
    obtain ⟨ln, hindent, hcontent, hread⟩ := read_of_says (how.keeps (says_entryText hp hk ""))
    have hrecord : ({ s with base := s.base.or (some (how.indent k)), target := none } :
        Scan).close.record = r := by
      rw [close_record, ← h.record, close_record]
    rw [hread, h.line_entry hindent hcontent] at he
    split at he
    · cases he
    · rename_i hne
      refine ⟨rfl, hne, fun hmem => ?_⟩
      rw [valueText_empty, openSelection_taken (hrecord ▸ hmem)] at he
      cases he

theorem Building.field_of_read (h : Building how header k layout s r (.bare name))
    (hp : pad.toList = List.replicate (k + 2) ' ') (hk : Solid key)
    (hflat : layout = .flat → key ≠ "condition")
    (he : s.read (how.set (pad ++ entryText key value)).toList = .ok t) :
    isKey key = true ∧ ∃ split, Scan.splitModifier key = .ok split := by
  cases hkey : isKey key with
  | false =>
    obtain ⟨ln, hindent, hcontent, hread⟩ := read_of_says
      (how.keeps (says_of_bare hp hk.toBare (content_of_solid hk hkey value)))
    rw [hread, line_of_block h.frame h.block (Nat.le_add_right k 2) hindent, Scan.detectionLine,
      hcontent] at he
    cases he
  | true =>
    rw [h.read_field hp hkey hflat] at he
    obtain ⟨split, hsplit, -⟩ := bind_ok.mp he
    exact ⟨rfl, split, hsplit⟩

theorem hasField_of_split {split : String × Option String} (h : sel.LegibleField)
    (hne : sel.fieldKey ≠ "") (hk : isKey sel.key = true)
    (hs : Scan.splitModifier sel.key = .ok split) : sel.HasField := by
  have hfield := (spec_of_splitModifier hk hs).1
  cases hm : sel.modifier with
  | none =>
    have hkey : sel.key = sel.fieldKey := by simp [Selection.key, hm]
    exact ⟨hkey ▸ hk, h.noBar, by simp [hm]⟩
  | some m =>
    have hmne : m ≠ "" := fun he => h.modifier (he ▸ hm)
    have hkey : sel.key = sel.fieldKey ++ "|" ++ m := by simp [Selection.key, hm, hmne]
    rw [hkey, splitModifier_bar h.trimmed h.noBar hne hmne] at hs
    split at hs
    · cases hs
    · split at hs
      · rename_i hmem
        obtain rfl := Except.ok.inj hs
        refine ⟨hfield, h.noBar, ?_⟩
        simpa [hm] using hmem
      · cases hs

/-- A selection as it is shown, and as it is read, if it is. -/
structure Shown (s : Selection) : Prop where
  name : Bare s.name
  field : s.IsBlank ∨ s.fieldKey ≠ "" ∧ s.LegibleField
  value : s.IsBlank ∨ s.matcher ≠ .one ""

theorem InDetection.readable_of_reads (h : InDetection how header k layout s r)
    (hp : pad.toList = List.replicate k ' ') (hs : Shown sel)
    (hflat : layout = .flat → sel.key ≠ "condition")
    (hreads : Reads s ((selectionText pad sel).map how.set) t) :
    sel.Readable ∧ sel.name ∉ r.selectionNames := by
  cases hreads with
  | cons head tail =>
    obtain ⟨hk, hne, hnew⟩ := h.name_of_read hp hs.name head
    refine ⟨⟨hk, hne, hs.field.imp_right fun ⟨hfield, hlegible⟩ => ?_⟩, hnew⟩
    obtain ⟨u, hname, hu⟩ := h.read_name hp hk hne hnew
    obtain rfl := Except.ok.inj (hname.symm.trans head)
    have hsome : sel.fieldKey.isEmpty = false := by simpa using hfield
    rw [matcherText, hsome] at tail
    -- Whichever matcher it is, the first line below the name is that of the field.
    have hline : ∃ value u', Scan.read u (how.set (pad ++ indentation ++ entryText sel.key
        value)).toList = .ok u' := by
      cases hm : sel.matcher with
      | one text =>
        rw [hm] at tail
        cases tail with
        | cons head' _ => exact ⟨_, _, head'⟩
      | many items =>
        rw [hm] at tail
        cases tail with
        | cons head' _ => exact ⟨_, _, head'⟩
    obtain ⟨value, u', hread⟩ := hline
    obtain ⟨hkey, split, hsplit⟩ := hu.field_of_read (toList_indented hp) hlegible.key hflat hread
    exact hasField_of_split hlegible hfield hkey hsplit

theorem InDetection.readable_of_selections {sels : List Selection}
    (h : InDetection how header k layout s r) (hp : pad.toList = List.replicate k ' ')
    (hs : ∀ sel ∈ sels, Shown sel) (hflat : layout = .flat → ∀ sel ∈ sels, sel.Flat)
    (hnodup : r.selectionNames.Nodup)
    (hreads : Reads s ((sels.flatMap (selectionText pad)).map how.set) t) :
    (∀ sel ∈ sels, sel.Readable) ∧ (r.selectionNames ++ sels.map (·.name)).Nodup := by
  induction sels generalizing s r with
  | nil => exact ⟨List.forall_mem_nil _, by simpa using hnodup⟩
  | cons sel sels ih =>
    have hshown : Shown sel := hs sel List.mem_cons_self
    have hflatSel (hl : layout = .flat) : sel.Flat := hflat hl sel List.mem_cons_self
    rw [List.flatMap_cons, List.map_append] at hreads
    obtain ⟨u, hsel, hrest⟩ := hreads.of_append
    obtain ⟨hreadable, hnew⟩ :=
      h.readable_of_reads hp hshown (fun hl => (hflatSel hl).notCondition) hsel
    obtain ⟨u', hforward, hu⟩ := h.reads_selection hp hreadable hshown.value hflatSel hnew
    obtain rfl := hforward.unique hsel
    have hnames : ({ r with selections := r.selections ++ [sel] } : Record).selectionNames =
        r.selectionNames ++ [sel.name] := by simp [Record.selectionNames]
    obtain ⟨hall, hdistinct⟩ := ih hu (fun x hx => hs x (List.mem_cons_of_mem _ hx))
      (fun hl x hx => hflat hl x (List.mem_cons_of_mem _ hx))
      (Record.distinct_addSelection hnodup hnew) hrest
    rw [hnames, List.append_assoc] at hdistinct
    exact ⟨List.forall_mem_cons.mpr ⟨hreadable, hall⟩, hdistinct⟩

-- ---------------------------------------------------------------------------
-- What is shown of a legible record
-- ---------------------------------------------------------------------------

theorem shown_spec {s : Selection} (hname : Bare s.name)
    (hfield : s.fieldKey ≠ "" → s.LegibleField) : Shown s.shown := by
  cases he : s.fieldKey.isEmpty with
  | true =>
    rw [shown_of_blank he]
    exact ⟨hname, .inl rfl, .inl rfl⟩
  | false =>
    have hne : s.fieldKey ≠ "" := by simpa using he
    have h := hfield hne
    rw [shown_of_field he]
    refine ⟨hname, .inr ⟨hne, h.key, h.unbroken, h.trimmed, h.noBar, h.modifier⟩, .inr ?_⟩
    change s.matcher.shown ≠ .one ""
    intro hempty
    cases hm : s.matcher with
    | many items =>
      rw [hm] at hempty
      cases hempty
    | one text =>
      rw [hm, Matcher.shown] at hempty
      split at hempty
      · cases hempty
      · rename_i htext
        exact htext (by rw [Matcher.one.inj hempty]; rfl)

theorem shown_selections (h : r.Legible) : ∀ sel ∈ r.shown.selections, Shown sel := by
  intro sel hsel
  obtain ⟨s, hs, rfl⟩ := List.mem_map.mp hsel
  exact shown_spec (h.name s hs).1 (h.field s hs)

theorem unbroken_fieldKey (h : unbroken sel.key = true) : unbroken sel.fieldKey = true := by
  rw [Text.unbroken_iff] at h ⊢
  intro c hc
  refine h c ?_
  unfold Selection.key
  split
  · split
    · exact hc
    · simp [hc]
  · exact hc

theorem unbroken_shown (h : r.Legible) : r.shown.Unbroken := by
  refine Record.unbroken_of_shownValues h.value (fun sel hsel => ?_) (fun t ht => ?_) fun k hk => ?_
  · have hshown := shown_selections h sel hsel
    obtain ⟨s, hs, rfl⟩ := List.mem_map.mp hsel
    refine ⟨name_shown s ▸ (h.name s hs).2, ?_⟩
    rcases hshown.field with hblank | ⟨-, hfield⟩
    · rw [hblank]
      rfl
    · exact unbroken_fieldKey hfield.unbroken
  · obtain ⟨w, hw, rfl⟩ := List.mem_map.mp ht
    refine Text.unbroken_of_isWord ?_
    rw [String.toList_ofList]
    exact Text.isWord_of_mem_words hw
  · exact (h.extra k (Table.keys_mapValues shownValue r.extras ▸ hk)).2.1

theorem unbroken_previewText (h : r.Legible) : ∀ l ∈ previewText r, unbroken l = true := by
  have hu := unbroken_shown h
  obtain ⟨-, -, -, hstrings, -⟩ := Record.unbroken_iff.mp hu
  have hselections : ∀ l ∈ r.shown.selections.flatMap (selectionText indentation),
      unbroken l = true := by
    intro l hl
    obtain ⟨sel, hsel, hl⟩ := List.mem_flatMap.mp hl
    refine unbroken_selectionText (by decide) (fun hne => ?_) (hstrings sel hsel) l hl
    rcases (shown_selections h sel hsel).field with hblank | ⟨-, hfield⟩
    · exact absurd (by rw [hblank]) hne
    · exact hfield.unbroken
  simp only [previewText, List.forall_mem_append, List.forall_mem_cons]
  exact ⟨⟨⟨unbroken_openingLines hu _, unbroken_listsText hu⟩, unbroken_extrasText hu⟩,
    unbroken_entryText (by decide) (by decide),
    unbroken_append (by decide) (unbroken_entryText (by decide) h.condition), hselections⟩

-- ---------------------------------------------------------------------------
-- Whole previews
-- ---------------------------------------------------------------------------

theorem description_shown (h : (!r.description.isEmpty) = false) : r.shown.description = "" := by
  simp only [Record.shown, description_of_undescribed h]
  rfl

theorem terms_shown (r : Record) : r.shown.condition.terms =
    (Text.words (shownValue r.condition.text).toList).map String.ofList := by
  rw [words_shownValue]
  rfl

theorem previewText_eq (r : Record) : previewText r =
    (openingLines (!r.description.isEmpty) r.shown ++ listsText r.shown ++
      extrasText r.shown.extras.entries ++ [entryText "detection" ""]) ++
    (indentation ++ entryText "condition" (shownValue r.condition.text)) ::
      r.shown.selections.flatMap (selectionText indentation) := by
  simp only [previewText, List.append_assoc, List.singleton_append]

theorem frame_written : Frame .asWritten (some 0) 2 (.nested 2) := .nested rfl

theorem reads_previewText (h : r.shown.Draft) :
    ∃ s, Reads start (previewText r) s ∧ s.close.record = r.shown := by
  have hdescription := description_shown (r := r)
  have hterms := conditionTerms_valueText_iff.mpr ⟨terms_shown r, h.term⟩
  rw [previewText_eq]
  generalize r.shown = q at *
  obtain ⟨seen, hheader⟩ := reads_header .asWritten h hdescription
  rw [Setting.map_asWritten] at hheader
  have hpad : indentation.toList = List.replicate 2 ' ' := rfl
  obtain ⟨t, hcondition, ht⟩ := read_condition
    (s := afterHeader { headOf q with extras := q.extras } seen) frame_written rfl rfl rfl hpad hterms
  obtain ⟨u, hselections, hu⟩ := ht.reads_selections hpad h.selection h.value nofun h.distinct
  rw [Setting.map_asWritten] at hselections
  exact ⟨u, hheader.append (.cons hcondition hselections), hu.record⟩

theorem detection_of_reads (h : r.Legible)
    (hreads : Reads (afterHeader q seen)
      ((indentation ++ entryText "condition" (shownValue r.condition.text)) ::
        r.shown.selections.flatMap (selectionText indentation)) s)
    (hq : q.selectionNames.Nodup) :
    (∀ t ∈ r.shown.condition.terms, isTerm t = true) ∧
      (∀ sel ∈ r.shown.selections, sel.Readable) ∧ r.shown.selectionNames.Nodup := by
  have hpad : indentation.toList = List.replicate 2 ' ' := rfl
  cases hreads with
  | cons condition selections =>
    have hline := read_conditionLine (s := afterHeader q seen) frame_written rfl rfl rfl hpad
      (shownValue r.condition.text)
    rw [Setting.set, condition] at hline
    cases hterms : conditionTerms (valueText (shownValue r.condition.text)) with
    | error reason =>
      rw [hterms] at hline
      cases hline
    | ok terms =>
      obtain ⟨u, hcondition, hu⟩ := read_condition (s := afterHeader q seen) frame_written rfl rfl
        rfl hpad hterms
      obtain rfl := Except.ok.inj (hcondition.symm.trans condition)
      obtain ⟨rfl, hterm⟩ := conditionTerms_valueText_iff.mp hterms
      rw [← Setting.map_asWritten (List.flatMap _ _)] at selections
      obtain ⟨hreadable, hdistinct⟩ := hu.readable_of_selections hpad (shown_selections h)
        (fun hflat => by cases hflat) hq selections
      exact ⟨terms_shown r ▸ hterm, hreadable, (List.nodup_append.mp hdistinct).2.1⟩

/-- What is read of a preview is a draft: each part that is read is one that the text gives back, and
leaves the reader where the next part is read. -/
theorem draft_of_reads (h : r.Legible) (hreads : Reads start (previewText r) s) :
    r.shown.Draft := by
  have hid : r.shown.id ≠ some "" := identifier?_ne_empty _
  have hlevel := lower_level_shown r
  obtain ⟨seen, hseen, hhead⟩ := reads_head .asWritten hid hlevel description_shown
  rw [Setting.map_asWritten] at hhead
  rw [previewText, List.append_assoc] at hreads
  obtain ⟨t, hextras, hdetection⟩ := (hreads.rest hhead).of_append
  have hrule : ∀ e ∈ r.shown.extras.entries, Solid e.1 ∧ e.1 ∉ ruleKeys := fun e he =>
    have hmem : e.1 ∈ r.extras.keys :=
      Table.keys_mapValues shownValue r.extras ▸ List.mem_map_of_mem he
    ⟨(h.extra e.1 hmem).1, (h.extra e.1 hmem).2.2⟩
  have hnew : ∀ e ∈ r.shown.extras.entries, e.1 ∉ seen := fun e he hmem =>
    (hrule e he).2 (hseen e.1 hmem).1
  have hvalid := extras_of_reads hrule r.shown.extras.distinct hnew hextras
  -- The keys lead to one state only, so the detection block is read from there.
  have hforward := reads_extras .asWritten (r := headOf r.shown)
    (fun e he => ⟨(hvalid e he).1, (hrule e he).2⟩) (fun e he => (hvalid e he).2)
    r.shown.extras.distinct hnew
  rw [Setting.map_asWritten] at hforward
  obtain rfl := hforward.unique hextras
  have hdetectionNew : "detection" ∉ (r.shown.extras.entries.map Prod.fst).reverse ++ seen := by
    intro hmem
    rcases List.mem_append.mp hmem with hmem | hmem
    · obtain ⟨e, he, heq⟩ := List.mem_map.mp (List.mem_reverse.mp hmem)
      exact (hrule e he).2 (heq ▸ by decide)
    · exact (hseen _ hmem).2 rfl
  cases hdetection with
  | cons header body =>
    obtain rfl := Except.ok.inj ((read_detectionHeader .asWritten hdetectionNew).symm.trans header)
    obtain ⟨hterm, hreadable, hdistinct⟩ := detection_of_reads h body List.nodup_nil
    exact {
      unbroken := unbroken_shown h
      id := hid
      level := hlevel
      extra := fun k hk => by
        obtain ⟨e, he, rfl⟩ := List.mem_map.mp hk
        exact ⟨(hvalid e he).1, (hrule e he).2⟩
      selection := hreadable
      distinct := hdistinct
      term := hterm
      extraValue := fun v hv => by
        obtain ⟨e, he, rfl⟩ := List.mem_map.mp hv
        exact (hvalid e he).2
      value := fun sel hsel => (shown_selections h sel hsel).value }

/-- The preview of a legible record gives what it shows, and does exactly if that is a draft. -/
theorem parse_preview_ok_iff (h : r.Legible) :
    parse (preview r) = .ok q ↔ r.shown.Draft ∧ q = r.shown := by
  rw [preview_eq_shown]
  constructor
  · intro hp
    obtain ⟨s, hreads, hs⟩ := reads_of_parse (unbroken_previewText h) hp
    have hdraft := draft_of_reads h hreads
    obtain ⟨t, hforward, ht⟩ := reads_previewText hdraft
    obtain rfl := hforward.unique hreads
    exact ⟨hdraft, hs.symm.trans ht⟩
  · rintro ⟨hdraft, rfl⟩
    obtain ⟨s, hreads, hs⟩ := reads_previewText hdraft
    rw [parse_of_reads (unbroken_previewText h) hreads, hs]

end RuleText

end SigmaDesk
