import SigmaDesk.Proofs.RuleText.Draft
import SigmaDesk.Proofs.Table

/-!
# What reading gives is readable

Every record that the reader gives is readable, whatever the text. The reader keeps an invariant from
line to line: what it has read is readable, and the selection under way is one that may be added.
-/

namespace SigmaDesk

namespace RuleText

open Text (isBlank isBreak unbroken)

variable {cs value raw : List Char} {c : Char} {key v : String} {vs : List String} {r : Record}
  {s t : Scan} {sel : Selection}

-- ---------------------------------------------------------------------------
-- Lines
-- ---------------------------------------------------------------------------

theorem head?_trim (h : cs.head? = some c) (hc : isBlank c = false) :
    (Text.trim cs).head? = some c := by
  cases cs with
  | nil => cases h
  | cons d ds =>
    obtain rfl : d = c := Option.some.inj h
    have hright : (Text.trimRight (d :: ds)).head? = some d := by
      rw [Text.trimRight]
      split
      · simp [hc]
      · rfl
    obtain ⟨es, hes⟩ : ∃ es, Text.trimRight (d :: ds) = d :: es := by
      cases he : Text.trimRight (d :: ds) with
      | nil => simp [he] at hright
      | cons e es => exact ⟨es, by simpa [he] using hright⟩
    rw [Text.trim, hes, Text.trimLeft_of_head]
    · rfl
    · rintro e he
      obtain rfl := Option.some.inj he
      exact hc

theorem isKey_trim (h : cs.head?.any startsKey = true) (hcolon : ':' ∉ cs) :
    isKey (String.ofList (Text.trim cs)) = true := by
  obtain ⟨c, hc, hstart⟩ : ∃ c, cs.head? = some c ∧ startsKey c = true := by
    cases hh : cs.head? with
    | none => simp [hh] at h
    | some c => exact ⟨c, rfl, by simpa [hh] using h⟩
  refine isKey_iff.mpr ⟨?_, ?_, ?_⟩
  · simp [head?_trim hc (not_isBlank_of_startsKey hstart), hstart]
  · rw [String.toList_ofList]
    exact fun hmem => hcolon (Text.mem_of_mem_trim hmem)
  · rw [String.toList_ofList]
    exact (Text.trimmed_trim cs).last

def Content.Sound : Content → Prop
  | .item value => ∀ c ∈ value, isBreak c = false
  | .entry key value => isKey key = true ∧ unbroken key = true ∧ ∀ c ∈ value, isBreak c = false
  | .other => True

theorem sound_splitEntry? {body before after : List Char}
    (hbody : ∀ c ∈ body, isBreak c = false) (h : splitEntry? body = some (before, after)) :
    (Content.entry (String.ofList before) after).Sound := by
  unfold splitEntry? at h
  split at h
  · rename_i hstart
    split at h
    · rename_i d rest hdrop
      split at h
      · simp only [Option.some.injEq, Prod.mk.injEq] at h
        obtain ⟨rfl, rfl⟩ := h
        have htake : ∀ c ∈ body.takeWhile (· != ':'), c ∈ body := fun c hc =>
          (List.takeWhile_sublist _).subset hc
        have hrest : ∀ c ∈ rest, c ∈ body := fun c hc =>
          (List.dropWhile_sublist (· != ':')).subset (hdrop ▸ List.mem_cons_of_mem d hc)
        refine ⟨isKey_trim ?_ ?_, ?_, ?_⟩
        · rw [List.head?_takeWhile]
          cases hh : body.head? with
          | none => simp [hh] at hstart
          | some c =>
            have hc : startsKey c = true := by simpa [hh] using hstart
            have hne : c ≠ ':' := ne_of_startsKey hc (by decide)
            simp [hc, hne]
        · intro hmem
          simpa using List.all_eq_true.mp List.all_takeWhile ':' hmem
        · rw [Text.unbroken_iff, String.toList_ofList]
          exact fun c hc => hbody c (htake c (Text.mem_of_mem_trim hc))
        · exact fun c hc => hbody c (hrest c (Text.mem_of_mem_trim hc))
      · cases h
    · cases h
  · cases h

theorem sound_content {l : Line} (h : RawLine.ofChars raw = .line l)
    (hraw : ∀ c ∈ raw, isBreak c = false) : l.content.Sound := by
  have hbody : ∀ c ∈ l.body, isBreak c = false := by
    unfold RawLine.ofChars at h
    simp only at h
    split at h
    · cases h
    · split at h
      · cases h
      · split at h
        · cases h
        · obtain rfl := RawLine.line.inj h
          exact fun c hc => hraw c (Text.mem_of_mem_trim hc)
  unfold Line.content Content.ofBody
  split
  · exact fun c hc => hbody c (List.mem_of_mem_drop (Text.mem_of_mem_trim hc))
  · split
    · rename_i hsplit
      exact sound_splitEntry? hbody hsplit
    · trivial

theorem unbroken_inlineList? {items : List String} (hv : ∀ c ∈ value, isBreak c = false)
    (h : inlineList? value = .ok (some items)) : ∀ i ∈ items, unbroken i = true := by
  unfold inlineList? at h
  split at h
  · rename_i hflow
    obtain rfl := Except.ok.inj h
    exact unbroken_of_mem_flowList? hv hflow
  · cases h
  · cases h

theorem spec_of_splitModifier {field : String} {modifier : Option String} (hk : isKey key = true)
    (h : Scan.splitModifier key = .ok (field, modifier)) :
    isKey field = true ∧ '|' ∉ field.toList ∧ (∀ m ∈ modifier, m ∈ modifiers) ∧
      (unbroken key = true → unbroken field = true) := by
  unfold Scan.splitModifier at h
  simp only at h
  split at h
  · cases h
  · rename_i hempty
    obtain ⟨hfield, hmodifier⟩ : String.ofList (Text.trim (key.toList.takeWhile (· != '|'))) = field ∧
        ∀ m ∈ modifier, m ∈ modifiers := by
      split at h
      · obtain ⟨hfield, rfl⟩ := Prod.mk.inj (Except.ok.inj h)
        exact ⟨hfield, by simp⟩
      · split at h
        · cases h
        · split at h
          · rename_i hmem
            obtain ⟨hfield, rfl⟩ := Prod.mk.inj (Except.ok.inj h)
            exact ⟨hfield, by simpa using hmem⟩
          · cases h
    subst hfield
    obtain ⟨hhead, hcolon, -⟩ := isKey_iff.mp hk
    have htake : ∀ c ∈ key.toList.takeWhile (· != '|'), c ∈ key.toList := fun c hc =>
      (List.takeWhile_sublist _).subset hc
    refine ⟨isKey_trim ?_ fun hmem => hcolon (htake _ hmem), ?_, hmodifier, ?_⟩
    -- A key does not start with a bar, so the part before it starts as the key does.
    · cases htw : key.toList.takeWhile (· != '|') with
      | nil =>
        rw [htw] at hempty
        exact absurd rfl hempty
      | cons d ds =>
        have hd := List.head?_takeWhile (p := (· != '|')) (l := key.toList)
        rw [htw, List.head?_cons] at hd
        have hmem := (Option.filter_eq_some_iff.mp hd.symm).1
        simpa [hmem] using hhead
    · rw [String.toList_ofList]
      intro hmem
      simpa using List.all_eq_true.mp List.all_takeWhile '|' (Text.mem_of_mem_trim hmem)
    · intro hu
      rw [Text.unbroken_iff, String.toList_ofList]
      exact fun c hc => Text.unbroken_iff.mp hu c (htake c (Text.mem_of_mem_trim hc))

-- ---------------------------------------------------------------------------
-- Records
-- ---------------------------------------------------------------------------

theorem readable_empty : Record.Readable {} where
  unbroken := by decide
  id := by decide
  level := rfl
  extra := by decide
  selection := by decide
  distinct := by decide
  term := by decide

end RuleText

namespace Record

variable {r : Record} {v key : String} {vs : List String}

theorem text_setText_self (r : Record) (f : TextField) (v : String) :
    (r.setText f v).text f = if f = .level then Text.lower v else v := by
  cases f <;> rfl

theorem text_setText_of_ne {f g : TextField} (h : g ≠ f) : (r.setText f v).text g = r.text g := by
  cases f <;> cases g <;> first | rfl | exact absurd rfl h

theorem items_setItems_of_ne {f g : ListField} (h : g ≠ f) :
    (r.setItems f vs).items g = r.items g := by
  cases f <;> cases g <;> first | rfl | exact absurd rfl h

theorem Readable.setText (h : r.Readable) (f : TextField) (hv : Text.unbroken v = true) :
    (r.setText f v).Readable := by
  obtain ⟨hid, htext, hitem, hrest⟩ := unbroken_iff.mp h.unbroken
  have hnew : ∀ g, Text.unbroken ((r.setText f v).text g) = true := by
    intro g
    by_cases hg : g = f
    · subst hg
      rw [text_setText_self]
      split
      · rwa [Text.unbroken_lower]
      · exact hv
    · rw [text_setText_of_ne hg]
      exact htext g
  have hlevel : Text.lower (r.setText f v).level = (r.setText f v).level := by
    cases f with
    | level => exact Text.lower_lower v
    | _ => exact h.level
  cases f <;> exact ⟨unbroken_iff.mpr ⟨hid, hnew, hitem, hrest⟩, h.id, hlevel, h.extra, h.selection,
    h.distinct, h.term⟩

theorem Readable.setItems (h : r.Readable) (f : ListField)
    (hv : ∀ v ∈ vs, Text.unbroken v = true) : (r.setItems f vs).Readable := by
  obtain ⟨hid, htext, hitem, hrest⟩ := unbroken_iff.mp h.unbroken
  have hnew : ∀ g, ∀ v ∈ (r.setItems f vs).items g, Text.unbroken v = true := by
    intro g
    by_cases hg : g = f
    · subst hg
      rwa [items_setItems]
    · rw [items_setItems_of_ne hg]
      exact hitem g
  cases f <;> exact ⟨unbroken_iff.mpr ⟨hid, htext, hnew, hrest⟩, h.id, h.level, h.extra,
    h.selection, h.distinct, h.term⟩

theorem Readable.setId (h : r.Readable) (hv : Text.unbroken v = true) :
    ({ r with id := identifier? v } : Record).Readable := by
  obtain ⟨-, htext, hitem, hrest⟩ := unbroken_iff.mp h.unbroken
  have hid : Text.unbroken ((identifier? v).getD "") = true := (RuleText.getD_identifier? v).symm ▸ hv
  exact ⟨unbroken_iff.mpr ⟨hid, htext, hitem, hrest⟩, RuleText.identifier?_ne_empty v, h.level,
    h.extra, h.selection, h.distinct, h.term⟩

theorem Readable.setCondition {terms : List String} (h : r.Readable)
    (ht : ∀ t ∈ terms, isTerm t = true ∧ Text.unbroken t = true) :
    ({ r with condition := ⟨terms⟩ } : Record).Readable := by
  obtain ⟨hid, htext, hitem, hselection, -, hextra⟩ := unbroken_iff.mp h.unbroken
  exact ⟨unbroken_iff.mpr ⟨hid, htext, hitem, hselection, fun t h => (ht t h).2, hextra⟩, h.id,
    h.level, h.extra, h.selection, h.distinct, fun t h => (ht t h).1⟩

theorem Readable.insertExtra (h : r.Readable) (hk : RuleText.isKey key = true)
    (hrule : key ∉ RuleText.ruleKeys) (hu : Text.unbroken key = true)
    (hv : Text.unbroken v = true) :
    ({ r with extras := r.extras.insert key v } : Record).Readable := by
  obtain ⟨hid, htext, hitem, hselection, hterm, hkeys, hvalues⟩ := unbroken_iff.mp h.unbroken
  have hentry : ∀ e ∈ (r.extras.insert key v).entries, e = (key, v) ∨ e ∈ r.extras.entries :=
    fun e he => Table.mem_insert he
  refine ⟨unbroken_iff.mpr ⟨hid, htext, hitem, hselection, hterm, fun k hk => ?_, fun w hw => ?_⟩,
    h.id, h.level, fun k hkey => ?_, h.selection, h.distinct, h.term⟩
  · obtain ⟨e, he, rfl⟩ := List.mem_map.mp hk
    rcases hentry e he with rfl | he
    · exact hu
    · exact hkeys e.1 (List.mem_map_of_mem he)
  · obtain ⟨e, he, rfl⟩ := List.mem_map.mp hw
    rcases hentry e he with rfl | he
    · exact hv
    · exact hvalues e.2 (List.mem_map_of_mem he)
  · obtain ⟨e, he, rfl⟩ := List.mem_map.mp hkey
    rcases hentry e he with rfl | he
    · exact ⟨hk, hrule⟩
    · exact h.extra e.1 (List.mem_map_of_mem he)

theorem Readable.addSelection {s : Selection} (h : r.Readable) (hs : s.Readable)
    (hu : ∀ v ∈ s.strings, Text.unbroken v = true) (hnew : s.name ∉ r.selectionNames) :
    ({ r with selections := r.selections ++ [s] } : Record).Readable := by
  obtain ⟨hid, htext, hitem, hselection, hrest⟩ := unbroken_iff.mp h.unbroken
  refine ⟨unbroken_iff.mpr ⟨hid, htext, hitem, ?_, hrest⟩, h.id, h.level, h.extra, ?_,
    distinct_addSelection h.distinct hnew, h.term⟩
  · exact List.forall_mem_append.mpr ⟨hselection, List.forall_mem_singleton.mpr hu⟩
  · exact List.forall_mem_append.mpr ⟨h.selection, List.forall_mem_singleton.mpr hs⟩

end Record

namespace RuleText

open Text (unbroken isBreak)

variable {s t : Scan} {raw value : List Char} {key name : String} {l : Line} {layout : Layout}

-- ---------------------------------------------------------------------------
-- The invariant
-- ---------------------------------------------------------------------------

structure Pending.Sound (p : Pending) : Prop where
  readable : p.build.Readable
  strings : ∀ v ∈ p.build.strings, unbroken v = true
  field : ∀ sel i, p = .matched sel i → sel.HasField

/-- What the reader keeps from line to line. -/
structure Sound (s : Scan) : Prop where
  record : s.record.Readable
  pending : ∀ p, s.pending = some p → p.Sound ∧ p.build.name ∉ s.record.selectionNames

theorem Sound.of_eq (h : Sound s) (hr : t.record = s.record) (hp : t.pending = s.pending) :
    Sound t :=
  ⟨hr ▸ h.record, fun p he => hr ▸ h.pending p (hp ▸ he)⟩

theorem Sound.of_record {r : Record} (h : Sound s) (hr : r.Readable)
    (hs : r.selections = s.record.selections) : Sound { s with record := r } := by
  refine ⟨hr, fun p hp => ?_⟩
  have hnames : r.selectionNames = s.record.selectionNames := congrArg (List.map _) hs
  exact hnames ▸ h.pending p hp

theorem Sound.close (h : Sound s) : Sound s.close := by
  cases hp : s.pending with
  | none =>
    have hs : s.close = s := by simp [Scan.close, hp]
    rwa [hs]
  | some p =>
    obtain ⟨hsound, hnew⟩ := h.pending p hp
    have hs : s.close = { s with
        record := { s.record with selections := s.record.selections ++ [p.build] }
        pending := none } := by simp [Scan.close, hp]
    rw [hs]
    exact ⟨h.record.addSelection hsound.readable hsound.strings hnew, nofun⟩

theorem Sound.leave (h : Sound s) : Sound s.leave := h.close.of_eq rfl rfl

-- ---------------------------------------------------------------------------
-- Steps outside the blocks
-- ---------------------------------------------------------------------------

theorem Sound.setItems {vs : List String} (h : Sound s) (f : ListField)
    (hv : ∀ v ∈ vs, unbroken v = true) :
    Sound { s with record := s.record.setItems f (s.record.items f ++ vs) } := by
  obtain ⟨-, -, hitem, -⟩ := Record.unbroken_iff.mp h.record.unbroken
  refine h.of_record (h.record.setItems f (List.forall_mem_append.mpr ⟨hitem f, hv⟩)) ?_
  cases f <;> rfl

theorem Sound.setText {v : String} (h : Sound s) (f : TextField) (hv : unbroken v = true) :
    Sound { s with record := s.record.setText f v } := by
  refine h.of_record (h.record.setText f hv) ?_
  cases f <;> rfl

theorem mem_texts_of_mem_values {m : Matcher} {v : String} (h : v ∈ m.values) : v ∈ m.texts := by
  cases m with
  | one text =>
    simp only [Matcher.values, Matcher.itemsOf] at h
    split at h
    · cases h
    · exact h
  | many items => exact h

theorem Pending.Sound.addItem {p : Pending} {item : String} (h : p.Sound)
    (hi : unbroken item = true) :
    (p.addItem item).Sound ∧ (p.addItem item).build.name = p.build.name := by
  cases p with
  | bare name => exact ⟨h, rfl⟩
  | matched sel i =>
    have hfield : sel.HasField := h.field sel i rfl
    have hadded : ({ sel with matcher := .many (sel.values ++ [item]) } : Selection).HasField :=
      ⟨hfield.key, hfield.noBar, hfield.modifier⟩
    have hvalues : ∀ v ∈ sel.values ++ [item], unbroken v = true :=
      List.forall_mem_append.mpr ⟨fun v hv => unbroken_texts h.strings v (mem_texts_of_mem_values hv),
        List.forall_mem_singleton.mpr hi⟩
    refine ⟨⟨⟨h.readable.name, h.readable.notCondition, .inr hadded⟩, ?_, ?_⟩, rfl⟩
    · exact List.forall_mem_cons.mpr ⟨h.strings sel.name (by simp [build, Selection.strings]),
        List.forall_mem_cons.mpr ⟨h.strings sel.fieldKey (by simp [build, Selection.strings]),
          hvalues⟩⟩
    · rintro sel' i' he
      obtain rfl := (Pending.matched.inj he).1
      exact hadded

theorem sound_addItem (h : Sound s) (hv : ∀ c ∈ value, isBreak c = false)
    (he : s.addItem value = .ok t) : Sound t := by
  have hitem : unbroken (scalar value) = true := unbroken_scalar hv
  unfold Scan.addItem at he
  split at he
  · obtain rfl := Except.ok.inj he
    exact h.setItems _ (List.forall_mem_singleton.mpr hitem)
  · obtain rfl := Except.ok.inj he
    refine ⟨h.record, fun p hp => ?_⟩
    obtain ⟨q, hq, rfl⟩ := Option.map_eq_some_iff.mp hp
    obtain ⟨hsound, hnew⟩ := h.pending q hq
    obtain ⟨hadd, hname⟩ := hsound.addItem hitem
    exact ⟨hadd, hname ▸ hnew⟩
  · cases he

theorem sound_openItems {f : ListField} (h : Sound s) (hv : ∀ c ∈ value, isBreak c = false)
    (he : s.openItems f key value = .ok t) : Sound t := by
  unfold Scan.openItems at he
  split at he
  · obtain rfl := Except.ok.inj he
    exact h.of_eq rfl rfl
  · obtain ⟨items?, hitems, he⟩ := bind_ok.mp he
    cases items? with
    | none => cases he
    | some items =>
      obtain rfl := Except.ok.inj he
      exact h.setItems f (unbroken_inlineList? hv hitems)

theorem sound_openBlock {kind : BlockKind} {i : Nat} (h : Sound s)
    (he : s.openBlock kind i key value = .ok t) : Sound t := by
  unfold Scan.openBlock at he
  split at he
  · obtain rfl := Except.ok.inj he
    exact h.of_eq rfl rfl
  · cases he

theorem not_mem_of_ofName (h : TopKey.ofName key = .extra) : key ∉ ruleKeys := by
  intro hmem
  have hall : ∀ k ∈ ruleKeys, TopKey.ofName k ≠ .extra := by decide
  exact hall key hmem h

theorem sound_topEntry {i : Nat} (h : Sound s) (hc : (Content.entry key value).Sound)
    (he : s.topEntry i key value = .ok t) : Sound t := by
  obtain ⟨hk, hu, hv⟩ := hc
  have hscalar : unbroken (scalar value) = true := unbroken_scalar hv
  unfold Scan.topEntry at he
  split at he
  · obtain rfl := Except.ok.inj he
    exact h.of_record (h.record.setId hscalar) rfl
  · obtain rfl := Except.ok.inj he
    exact h.setText _ hscalar
  · exact sound_openItems h hv he
  · exact sound_openBlock h he
  · split at he
    · obtain rfl := Except.ok.inj he
      exact h.setText .logType hscalar
    · cases he
  · cases he
  · rename_i hextra
    split at he
    · cases he
    · obtain rfl := Except.ok.inj he
      exact h.of_record (h.record.insertExtra hk (not_mem_of_ofName hextra) hu hscalar) rfl

theorem sound_topLine (h : Sound s) (hc : l.content.Sound) (he : s.topLine l = .ok t) :
    Sound t := by
  unfold Scan.topLine at he
  split at he
  · rename_i hcontent
    rw [hcontent] at hc
    exact sound_addItem h hc he
  · cases he
  · rename_i hcontent
    rw [hcontent] at hc
    split at he
    · cases he
    · split at he
      · cases he
      · refine sound_topEntry ?_ hc he
        exact h.of_eq rfl rfl

-- ---------------------------------------------------------------------------
-- Steps inside the blocks
-- ---------------------------------------------------------------------------

theorem sound_logsourceLine (h : Sound s) (hc : l.content.Sound)
    (he : s.logsourceLine layout l = .ok t) : Sound t := by
  unfold Scan.logsourceLine at he
  split at he
  · cases he
  · cases he
  · rename_i key value hcontent
    split at he
    · split at he
      · cases he
      · have hcontentSound := hc
        rw [hcontent] at hcontentSound
        have hstep : Sound { s with
            seen := key :: s.seen
            record := s.record.setText .logType (scalar value) } :=
          (h.setText .logType (unbroken_scalar hcontentSound.2.2)).of_eq rfl rfl
        obtain rfl := Except.ok.inj he
        split
        · exact hstep.leave
        · exact hstep
    · split at he
      · exact sound_topLine h.leave hc he
      · cases he

theorem sound_bare (hk : isKey name = true) (hu : unbroken name = true) (hne : name ≠ "condition") :
    (Pending.bare name).Sound := by
  refine ⟨⟨hk, hne, .inl rfl⟩, ?_, nofun⟩
  simp [Pending.build, Selection.strings, Matcher.texts, hu]

theorem sound_openSelection (h : Sound s) (hc : (Content.entry key value).Sound)
    (hne : key ≠ "condition") (he : s.openSelection key value = .ok t) : Sound t := by
  unfold Scan.openSelection at he
  simp only at he
  split at he
  · cases he
  · split at he
    · cases he
    · rename_i hnew
      obtain rfl := Except.ok.inj he
      refine ⟨h.close.record, ?_⟩
      rintro p hp
      obtain rfl := Option.some.inj hp
      exact ⟨sound_bare hc.1 hc.2.1 hne, fun hmem => hnew (List.contains_iff_mem.mpr hmem)⟩

theorem sound_matcherLine {i : Nat} (h : Sound s) (hp : s.pending = some (.bare name))
    (hc : (Content.entry key value).Sound) (he : s.matcherLine name i key value = .ok t) :
    Sound t := by
  obtain ⟨hbare, hnew⟩ := h.pending _ hp
  obtain ⟨⟨field, modifier⟩, hsplit, he⟩ := bind_ok.mp he
  obtain ⟨hfield, hbar, hmodifier, hunbroken⟩ := spec_of_splitModifier hc.1 hsplit
  have hsound (matcher : Matcher) (hm : ∀ v ∈ matcher.texts, unbroken v = true) :
      (Pending.matched ⟨name, field, modifier, matcher⟩ i).Sound := by
    have hhas : Selection.HasField ⟨name, field, modifier, matcher⟩ := ⟨hfield, hbar, hmodifier⟩
    refine ⟨⟨hbare.readable.name, hbare.readable.notCondition, .inr hhas⟩, ?_, ?_⟩
    · exact List.forall_mem_cons.mpr ⟨hbare.strings name (by simp [Pending.build, Selection.strings]),
        List.forall_mem_cons.mpr ⟨hunbroken hc.2.1, hm⟩⟩
    · rintro sel' i' heq
      obtain rfl := (Pending.matched.inj heq).1
      exact hhas
  -- Whatever the value is, the record stays, and the selection takes the place of its name.
  have hstep {u : Scan} (matcher : Matcher) (hm : ∀ v ∈ matcher.texts, unbroken v = true)
      (hr : u.record = s.record)
      (hpend : u.pending = some (.matched ⟨name, field, modifier, matcher⟩ i)) : Sound u := by
    refine ⟨hr ▸ h.record, fun p hp => ?_⟩
    obtain rfl := Option.some.inj (hpend.symm.trans hp)
    exact ⟨hsound matcher hm, hr ▸ hnew⟩
  simp only at he
  split at he
  · obtain rfl := Except.ok.inj he
    exact hstep (.many []) (by simp [Matcher.texts]) rfl rfl
  · obtain ⟨items?, hitems, he⟩ := bind_ok.mp he
    cases items? with
    | none =>
      obtain rfl := Except.ok.inj he
      exact hstep (.one (scalar value)) (List.forall_mem_singleton.mpr (unbroken_scalar hc.2.2))
        rfl rfl
    | some items =>
      obtain rfl := Except.ok.inj he
      exact hstep (.many items) (unbroken_inlineList? hc.2.2 hitems) rfl rfl

theorem sound_selectionEntry {i : Nat} (h : Sound s) (hc : (Content.entry key value).Sound)
    (hne : ¬(key = "condition" ∧ Scan.Layout.takesCondition layout i = true))
    (he : s.selectionEntry layout i key value = .ok t) : Sound t := by
  unfold Scan.selectionEntry at he
  split at he
  · have hkey : key ≠ "condition" := fun hk => hne ⟨hk, rfl⟩
    split at he
    · rename_i hp
      exact sound_matcherLine h hp hc he
    · exact sound_openSelection h hc hkey he
  · split at he
    · rename_i hi
      have hkey : key ≠ "condition" := fun hk => hne ⟨hk, by simp [Scan.Layout.takesCondition, hi]⟩
      exact sound_openSelection h hc hkey he
    · split at he
      · split at he
        · cases he
        · rename_i hp
          exact sound_matcherLine h hp hc he
        · cases he
      · cases he

theorem sound_detectionLine (h : Sound s) (hc : l.content.Sound)
    (he : s.detectionLine layout l = .ok t) : Sound t := by
  unfold Scan.detectionLine at he
  split at he
  · rename_i hcontent
    rw [hcontent] at hc
    split at he
    · cases he
    · exact sound_addItem h hc he
  · cases he
  · rename_i key value hcontent
    rw [hcontent] at hc
    have htarget : Sound { s with target := none } := h.of_eq rfl rfl
    simp only at he
    split at he
    · split at he
      · cases he
      · obtain ⟨terms, hterms, he⟩ := bind_ok.mp he
        obtain rfl := Except.ok.inj he
        have hclosed := htarget.close
        have hread : ∀ t ∈ terms, isTerm t = true ∧ unbroken t = true := fun t ht =>
          have hterm := isTerm_of_conditionTerms hterms t ht
          ⟨hterm, unbroken_of_isTerm hterm⟩
        exact (hclosed.of_record (hclosed.record.setCondition hread) rfl).of_eq rfl rfl
    · rename_i hne
      exact sound_selectionEntry htarget hc hne he

-- ---------------------------------------------------------------------------
-- Whole texts
-- ---------------------------------------------------------------------------

theorem sound_line (h : Sound s) (hc : l.content.Sound) (he : s.line l = .ok t) : Sound t := by
  have hbase : Sound { s with base := s.base.or (some l.indent) } := h.of_eq rfl rfl
  unfold Scan.line at he
  simp only at he
  split at he
  · exact sound_topLine hbase hc he
  · split at he
    · exact sound_topLine hbase.leave hc he
    · split at he
      · refine sound_logsourceLine ?_ hc he
        exact hbase.of_eq rfl rfl
      · refine sound_detectionLine ?_ hc he
        exact hbase.of_eq rfl rfl

/-- One line of a text keeps the invariant. -/
theorem sound_read (h : Sound s) (hraw : ∀ c ∈ raw, isBreak c = false) (he : s.read raw = .ok t) :
    Sound t := by
  unfold Scan.read at he
  split at he
  · obtain rfl := Except.ok.inj he
    exact h
  · split at he
    · cases he
    · obtain rfl := Except.ok.inj he
      exact h
  · cases he
  · rename_i hline
    exact sound_line h (sound_content hline hraw) he

theorem readAll_cons_eq_ok_iff {raw : List Char} {raws : List (List Char)} {n : Nat} :
    s.readAll n (raw :: raws) = .ok t ↔
      ∃ u, s.read raw = .ok u ∧ u.readAll (n + 1) raws = .ok t := by
  rw [Scan.readAll]
  cases s.read raw with
  | ok u => simp
  | error reason => simp

theorem sound_readAll {raws : List (List Char)} {n : Nat} (h : Sound s)
    (hraw : ∀ raw ∈ raws, ∀ c ∈ raw, isBreak c = false) (he : s.readAll n raws = .ok t) :
    Sound t := by
  -- The invariant carries the induction; the number of the line does not matter to it.
  induction raws generalizing s n with
  | nil =>
    obtain rfl := Except.ok.inj he
    exact h
  | cons raw raws ih =>
    obtain ⟨u, hread, he⟩ := readAll_cons_eq_ok_iff.mp he
    have hu := sound_read h (hraw raw List.mem_cons_self) hread
    exact ih hu (fun w hw => hraw w (List.mem_cons_of_mem _ hw)) he

theorem sound_start : Sound .start := ⟨readable_empty, nofun⟩

theorem readable_of_parse {text : String} {r : Record} (h : parse text = .ok r) : r.Readable := by
  obtain ⟨s, hs, he⟩ := bind_ok.mp h
  obtain rfl := Except.ok.inj he
  exact (sound_readAll sound_start (fun _ hl _ => Text.isBreak_of_mem_lines hl) hs).close.record

end RuleText

end SigmaDesk
