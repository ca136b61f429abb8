import SigmaDesk.Proofs.RuleText.Parsed
import SigmaDesk.Proofs.RuleText.Reading

/-!
# Lists under way

What a line does to the lists of a rule. An item goes to the end of the open list and to no other. A
key line closes that list; where it is the key line of a list itself, that list is new.
-/

namespace SigmaDesk

/-- A list of a rule: a field of the record, or what the selection of a name compares with. -/
inductive ItemList
  | field (f : ListField)
  | selection (name : String)
deriving DecidableEq, Repr

def ListField.key : ListField → String
  | .tags => "tags"
  | .references => "references"
  | .falsePositives => "falsepositives"

def Matcher.items? : Matcher → Option (List String)
  | .one _ => none
  | .many items => some items

namespace Record

variable {r r' : Record} {x : Selection} {xs : List Selection} {name : String}

def list? (r : Record) : ItemList → Option (List String)
  | .field f => some (r.items f)
  | .selection name => (r.selection? name).bind (·.matcher.items?)

theorem selection?_congr (h : r'.selections = r.selections) (name : String) :
    r'.selection? name = r.selection? name := by
  rw [selection?, h, selection?]

theorem selection?_last (h : r.selections = xs ++ [x]) (hx : x.name ∉ xs.map (·.name)) :
    r.selection? x.name = some x := by
  have hnone : xs.find? (·.name == x.name) = none := by
    rw [List.find?_eq_none]
    intro y hy
    have hne : y.name ≠ x.name := fun he => hx (he ▸ List.mem_map_of_mem hy)
    simpa using hne
  rw [selection?, h, List.find?_append, hnone]
  simp

theorem selection?_of_ne (h : r.selections = xs ++ [x]) (hne : name ≠ x.name) :
    r.selection? name = xs.find? (·.name == name) := by
  rw [selection?, h, List.find?_append]
  simp [Ne.symm hne]

end Record

namespace RuleText

variable {s t u : Scan} {o : ItemList} {f : ListField} {p : Pending} {name key : String}
  {raw value : List Char} {l : Line} {layout : Layout} {c : Content} {content : Option Content}

-- ---------------------------------------------------------------------------
-- The lists of a reader
-- ---------------------------------------------------------------------------

theorem key_of_ofName (h : TopKey.ofName key = .items f) : key = f.key := by
  by_cases hmem : key ∈ ruleKeys
  · have hall : ∀ k ∈ ruleKeys, TopKey.ofName k = .items f → k = f.key := by cases f <;> decide
    exact hall key hmem h
  · rw [ofName_of_not_mem hmem] at h
    cases h

theorem ofName_key (f : ListField) : TopKey.ofName f.key = .items f := by cases f <;> rfl

namespace Scan

/-- What a list would be if the text ended here. -/
def list? (s : Scan) (o : ItemList) : Option (List String) := s.close.record.list? o

def HasKey (s : Scan) : ItemList → Prop
  | .field f => f.key ∈ s.seen
  | .selection name => ∃ sel ∈ s.close.record.selection? name, sel.fieldKey ≠ ""

def openList? (s : Scan) : Option ItemList :=
  match s.target with
  | some (.field f) => some (.field f)
  | some .matcher => s.pending.map fun p => .selection p.build.name
  | none => none

theorem openList?_of_none (h : s.target = none) : s.openList? = none := by rw [openList?, h]

@[simp] theorem close_close (s : Scan) : s.close.close = s.close := by
  cases h : s.pending <;> simp [close, h]

@[simp] theorem close_target (s : Scan) : s.close.target = s.target := by
  cases h : s.pending <;> simp [close, h]

@[simp] theorem close_seen (s : Scan) : s.close.seen = s.seen := by
  cases h : s.pending <;> simp [close, h]

@[simp] theorem items_close (s : Scan) (f : ListField) :
    s.close.record.items f = s.record.items f := by
  rw [close_record]
  cases f <;> rfl

theorem selections_close (h : s.pending = some p) :
    s.close.record.selections = s.record.selections ++ [p.build] := by
  simp [close, h]

end Scan

structure SameLists (s t : Scan) : Prop where
  keys : ∀ o, t.HasKey o ↔ s.HasKey o
  lists : ∀ o, t.list? o = s.list? o

theorem selection?_same (hr : t.record.selections = s.record.selections)
    (hp : t.pending = s.pending) (name : String) :
    t.close.record.selection? name = s.close.record.selection? name := by
  refine Record.selection?_congr ?_ name
  rw [close_record, close_record, hr, hp]

namespace SameLists

theorem trans (h : SameLists s t) (k : SameLists t u) : SameLists s u :=
  ⟨fun o => (k.keys o).trans (h.keys o), fun o => (k.lists o).trans (h.lists o)⟩

theorem of_selection? (hseen : ∀ f : ListField, f.key ∈ t.seen ↔ f.key ∈ s.seen)
    (hitems : ∀ f, t.record.items f = s.record.items f)
    (hselection : ∀ name, t.close.record.selection? name = s.close.record.selection? name) :
    SameLists s t := by
  constructor
  · rintro (f | name)
    · exact hseen f
    · simp only [Scan.HasKey, hselection]
  · rintro (f | name)
    · simp only [Scan.list?, Record.list?, Scan.items_close, hitems]
    · simp only [Scan.list?, Record.list?, hselection]

theorem of_eq (hseen : ∀ f : ListField, f.key ∈ t.seen ↔ f.key ∈ s.seen)
    (hitems : ∀ f, t.record.items f = s.record.items f)
    (hselections : t.record.selections = s.record.selections) (hpending : t.pending = s.pending) :
    SameLists s t :=
  of_selection? hseen hitems (selection?_same hselections hpending)

end SameLists

theorem sameLists_close (s : Scan) : SameLists s s.close :=
  .of_selection? (by simp) (by simp) (by simp)

theorem sameLists_leave (s : Scan) : SameLists s s.leave :=
  (sameLists_close s).trans (.of_eq (fun _ => .rfl) (fun _ => rfl) rfl rfl)

-- ---------------------------------------------------------------------------
-- Effects
-- ---------------------------------------------------------------------------

/-- A list can only be open outside of a `logsource` block. -/
def Quiet (s : Scan) : Prop := s.target ≠ none → ∀ b ∈ s.block, b.kind = .detection

structure Appends (s t : Scan) (o : ItemList) (value : List Char) : Prop where
  before : s.openList? = some o
  after : t.openList? = some o
  keys : ∀ p, t.HasKey p ↔ s.HasKey p
  own : t.list? o = (s.list? o).map (· ++ [scalar value])
  others : ∀ p, p ≠ o → t.list? p = s.list? p
  quiet : Quiet t

structure Opens (s t : Scan) (o : ItemList) (key : String) (value : List Char) : Prop where
  new : ¬s.HasKey o
  heads : ∀ f, o = .field f → key = f.key
  keys : ∀ p, t.HasKey p ↔ s.HasKey p ∨ p = o
  others : ∀ p, p ≠ o → t.list? p = s.list? p
  waiting : value = [] → t.openList? = some o ∧ t.list? o = some []
  taken : value ≠ [] → t.target = none ∧ inlineList? value = .ok (t.list? o)
  quiet : Quiet t

inductive Effect (s t : Scan) (content : Option Content) : Prop
  | skipped (hcontent : content = none) (same : t = s)
  | item {o : ItemList} {value : List Char} (hcontent : content = some (.item value))
    (h : Appends s t o value)
  | list {o : ItemList} {key : String} {value : List Char}
    (hcontent : content = some (.entry key value)) (h : Opens s t o key value)
  | other {key : String} {value : List Char} (hcontent : content = some (.entry key value))
    (same : SameLists s t) (closed : t.target = none)

theorem Effect.of_same (hsame : SameLists s u)
    (hopen : ∀ o, u.openList? = some o → s.openList? = some o) (h : Effect u t (some c)) :
    Effect s t (some c) := by
  cases h with
  | skipped hcontent => cases hcontent
  | item hcontent h =>
    refine .item hcontent ⟨hopen _ h.before, h.after, fun p => ?_, ?_, fun p hp => ?_, h.quiet⟩
    · rw [h.keys p, hsame.keys p]
    · rw [h.own, hsame.lists]
    · rw [h.others p hp, hsame.lists p]
  | list hcontent h =>
    refine .list hcontent ⟨fun hk => h.new ((hsame.keys _).mpr hk), h.heads, fun p => ?_,
      fun p hp => ?_, h.waiting, h.taken, h.quiet⟩
    · rw [h.keys p, hsame.keys p]
    · rw [h.others p hp, hsame.lists p]
  | other hcontent same closed => exact .other hcontent (hsame.trans same) closed

theorem Effect.of_closed (hsame : SameLists s u) (hclosed : u.target = none)
    (h : Effect u t (some c)) : Effect s t (some c) :=
  h.of_same hsame fun o ho => by simp [Scan.openList?_of_none hclosed] at ho

structure Tidy (s : Scan) : Prop extends Sound s where
  unread : ∀ f : ListField, f.key ∉ s.seen → s.record.items f = []
  opened : s.target ≠ none → ∃ o items,
    s.openList? = some o ∧ s.HasKey o ∧ s.list? o = some items
  quiet : Quiet s

theorem quiet_of_none (h : s.target = none) : Quiet s := fun hne => absurd h hne

theorem Tidy.leave (h : Tidy s) : Tidy s.leave where
  toSound := h.toSound.leave
  unread f := by simpa [Scan.leave] using h.unread f
  opened hne := absurd rfl hne
  quiet := quiet_of_none rfl

theorem sameLists_placed (s : Scan) (base : Option Nat) (block : Option Block) :
    SameLists s { s with base, block } :=
  .of_eq (fun _ => .rfl) (fun _ => rfl) rfl rfl

theorem Tidy.placed (h : Tidy s) (base : Option Nat) (block : Option Block)
    (hquiet : Quiet { s with base, block }) : Tidy { s with base, block } where
  toSound := h.toSound.of_eq rfl rfl
  unread := h.unread
  opened hne := by
    have hsame := sameLists_placed s base block
    obtain ⟨o, items, hopen, hkey, hitems⟩ := h.opened hne
    exact ⟨o, items, hopen, (hsame.keys o).mpr hkey, (hsame.lists o).trans hitems⟩
  quiet := hquiet

theorem Effect.of_placed {base : Option Nat} {block : Option Block}
    (h : Effect { s with base, block } t (some c)) : Effect s t (some c) :=
  Effect.of_same (sameLists_placed s base block) (fun _ => id) h

-- ---------------------------------------------------------------------------
-- Fields
-- ---------------------------------------------------------------------------

theorem items_setText (r : Record) (f : TextField) (v : String) (g : ListField) :
    (r.setText f v).items g = r.items g := by
  cases f <;> rfl

theorem selections_setText (r : Record) (f : TextField) (v : String) :
    (r.setText f v).selections = r.selections := by
  cases f <;> rfl

theorem selections_setItems (r : Record) (f : ListField) (vs : List String) :
    (r.setItems f vs).selections = r.selections := by
  cases f <;> rfl

theorem Opens.of_field (hnew : f.key ∉ s.seen) (hseen : t.seen = f.key :: s.seen)
    (hselection : ∀ name, t.close.record.selection? name = s.close.record.selection? name)
    (hothers : ∀ g, g ≠ f → t.record.items g = s.record.items g)
    (hwaiting : value = [] → t.target = some (.field f) ∧ t.record.items f = [])
    (htaken : value ≠ [] → t.target = none ∧ inlineList? value = .ok (some (t.record.items f)))
    (hfree : ∀ b ∈ t.block, b.kind = .detection) : Opens s t (.field f) f.key value where
  new := hnew
  heads g hg := congrArg ListField.key (ItemList.field.inj hg)
  keys := by
    rintro (g | name)
    · have hg : g.key = f.key ↔ g = f := by cases g <;> cases f <;> decide
      simp [Scan.HasKey, hseen, hg, or_comm]
    · simp [Scan.HasKey, hselection]
  others := by
    rintro (g | name) hne
    · simp [Scan.list?, Record.list?, hothers g fun hg => hne (congrArg _ hg)]
    · simp only [Scan.list?, Record.list?, hselection]
  waiting hvalue := by
    obtain ⟨htarget, hitems⟩ := hwaiting hvalue
    simp [Scan.openList?, Scan.list?, Record.list?, htarget, hitems]
  taken hvalue := by
    obtain ⟨htarget, hitems⟩ := htaken hvalue
    simp [Scan.list?, Record.list?, htarget, hitems]
  quiet _ := hfree

theorem opens_openItems (h : Tidy s) (hfree : ∀ b ∈ s.block, b.kind = .detection)
    (hnew : f.key ∉ s.seen)
    (he : { s with seen := f.key :: s.seen, target := none }.openItems f f.key value = .ok t) :
    Opens s t (.field f) f.key value := by
  have hempty := h.unread f hnew
  unfold Scan.openItems at he
  split at he
  · rename_i hvalue
    obtain rfl := Except.ok.inj he
    refine .of_field hnew rfl (selection?_same rfl rfl) (fun _ _ => rfl) (fun _ => ⟨rfl, hempty⟩)
      (fun hne => ?_) hfree
    exact absurd (List.isEmpty_iff.mp hvalue) hne
  · rename_i hvalue
    obtain ⟨items?, hitems, he⟩ := bind_ok.mp he
    cases items? with
    | none => cases he
    | some items =>
      obtain rfl := Except.ok.inj he
      refine .of_field hnew rfl (selection?_same (selections_setItems _ _ _) rfl)
        (fun g hg => Record.items_setItems_of_ne hg) (fun hnil => ?_) (fun _ => ⟨rfl, ?_⟩) hfree
      · exact absurd (List.isEmpty_iff.mpr hnil) hvalue
      · rw [hitems, Record.items_setItems, hempty, List.nil_append]

theorem appends_field (h : Quiet s) (htarget : s.target = some (.field f)) :
    Appends s { s with record := s.record.setItems f (s.record.items f ++ [scalar value]) }
      (.field f) value := by
  have hselection := selection?_same (s := s)
    (t := { s with record := s.record.setItems f (s.record.items f ++ [scalar value]) })
    (selections_setItems _ _ _) rfl
  have hopen : s.openList? = some (.field f) := by rw [Scan.openList?, htarget]
  refine ⟨hopen, hopen, ?_, ?_, ?_, h⟩
  · rintro (g | name)
    · exact .rfl
    · simp only [Scan.HasKey, hselection]
  · simp [Scan.list?, Record.list?]
  · rintro (g | name) hne
    · have hg : g ≠ f := fun he => hne (congrArg _ he)
      simp [Scan.list?, Record.list?, Record.items_setItems_of_ne hg]
    · simp only [Scan.list?, Record.list?, hselection]

-- ---------------------------------------------------------------------------
-- Selections
-- ---------------------------------------------------------------------------

theorem selection?_pending (hp : s.pending = some p)
    (hnew : p.build.name ∉ s.record.selectionNames) :
    s.close.record.selection? p.build.name = some p.build :=
  Record.selection?_last (Scan.selections_close hp) hnew

theorem list?_pending (hp : s.pending = some p) (hnew : p.build.name ∉ s.record.selectionNames) :
    s.list? (.selection p.build.name) = p.build.matcher.items? := by
  simp [Scan.list?, Record.list?, selection?_pending hp hnew]

theorem hasKey_pending (hp : s.pending = some p)
    (hnew : p.build.name ∉ s.record.selectionNames) :
    s.HasKey (.selection p.build.name) ↔ p.build.fieldKey ≠ "" := by
  simp [Scan.HasKey, selection?_pending hp hnew]

structure Changed (s t : Scan) (p q : Pending) : Prop where
  pending : s.pending = some p
  changed : t.pending = some q
  name : q.build.name = p.build.name
  record : t.record = s.record
  seen : t.seen = s.seen
  new : p.build.name ∉ s.record.selectionNames

namespace Changed

variable {q : Pending}

theorem own (h : Changed s t p q) :
    t.list? (.selection p.build.name) = q.build.matcher.items? ∧
      (t.HasKey (.selection p.build.name) ↔ q.build.fieldKey ≠ "") := by
  have hnew : q.build.name ∉ t.record.selectionNames := by
    rw [h.name, h.record]
    exact h.new
  rw [← h.name]
  exact ⟨list?_pending h.changed hnew, hasKey_pending h.changed hnew⟩

theorem others (h : Changed s t p q) (hne : o ≠ .selection p.build.name) :
    t.list? o = s.list? o ∧ (t.HasKey o ↔ s.HasKey o) := by
  cases o with
  | field f => simp [Scan.list?, Record.list?, Scan.HasKey, h.record, h.seen]
  | selection name =>
    have hname : name ≠ p.build.name := fun he => hne (congrArg _ he)
    have hsame : t.close.record.selection? name = s.close.record.selection? name := by
      rw [Record.selection?_of_ne (Scan.selections_close h.pending) hname,
        Record.selection?_of_ne (Scan.selections_close h.changed) (h.name ▸ hname), h.record]
    simp only [Scan.list?, Record.list?, Scan.HasKey, hsame, true_and]

end Changed

theorem appends_matcher (h : Tidy s) (htarget : s.target = some .matcher) :
    ∃ o, Appends s { s with pending := s.pending.map (·.addItem (scalar value)) } o value := by
  obtain ⟨o, items, hopen, hkey, hitems⟩ := h.opened (by simp [htarget])
  simp only [Scan.openList?, htarget, Option.map_eq_some_iff] at hopen
  obtain ⟨p, hp, rfl⟩ := hopen
  have hnew := (h.pending p hp).2
  rw [list?_pending hp hnew] at hitems
  -- A selection without a field has no list, so the item finds the one that it goes to.
  obtain ⟨sel, i, rfl⟩ : ∃ sel i, p = .matched sel i := by
    cases p with
    | bare name => cases hitems
    | matched sel i => exact ⟨sel, i, rfl⟩
  have hmany : sel.matcher = .many items := by
    simp only [Pending.build] at hitems
    cases hm : sel.matcher with
    | one text => simp [hm, Matcher.items?] at hitems
    | many vs => simpa [hm, Matcher.items?] using hitems
  have hchanged : Changed s { s with pending := s.pending.map (·.addItem (scalar value)) }
      (.matched sel i) ((Pending.matched sel i).addItem (scalar value)) :=
    ⟨hp, by rw [hp]; rfl, rfl, rfl, rfl, hnew⟩
  refine ⟨_, ?_, ?_, fun o => ?_, ?_, fun o hne => (hchanged.others hne).1, h.quiet⟩
  · simp [Scan.openList?, htarget, hp]
  · simp [Scan.openList?, htarget, hp, Pending.addItem, Pending.build]
  · by_cases ho : o = .selection sel.name
    · subst ho
      exact iff_of_true (hchanged.own.2.mpr ((hasKey_pending hp hnew).mp hkey)) hkey
    · exact (hchanged.others ho).2
  · rw [hchanged.own.1, list?_pending hp hnew]
    simp [Pending.addItem, Pending.build, Matcher.items?, Selection.values, Matcher.values, hmany]

theorem appends_addItem (h : Tidy s) (he : s.addItem value = .ok t) : ∃ o, Appends s t o value := by
  unfold Scan.addItem at he
  split at he
  · rename_i f htarget
    obtain rfl := Except.ok.inj he
    exact ⟨_, appends_field h.quiet htarget⟩
  · rename_i htarget
    obtain rfl := Except.ok.inj he
    exact appends_matcher h htarget
  · cases he

theorem ne_empty_of_splitModifier {field : String} {modifier : Option String}
    (h : Scan.splitModifier key = .ok (field, modifier)) : field ≠ "" := by
  unfold Scan.splitModifier at h
  simp only at h
  split at h
  · cases h
  · rename_i hfield
    have hne : String.ofList (Text.trim (key.toList.takeWhile (· != '|'))) ≠ "" := by
      simpa using hfield
    split at h
    · exact (Prod.mk.inj (Except.ok.inj h)).1 ▸ hne
    · split at h
      · cases h
      · split at h
        · exact (Prod.mk.inj (Except.ok.inj h)).1 ▸ hne
        · cases h

theorem opens_matcherLine {i : Nat} (h : Sound s) (htarget : s.target = none)
    (hfree : ∀ b ∈ s.block, b.kind = .detection) (hp : s.pending = some (.bare name))
    (he : s.matcherLine name i key value = .ok t) : Opens s t (.selection name) key value := by
  obtain ⟨⟨field, modifier⟩, hsplit, he⟩ := bind_ok.mp he
  have hfield : field ≠ "" := ne_empty_of_splitModifier hsplit
  have hnew : name ∉ s.record.selectionNames := (h.pending _ hp).2
  -- Whatever the matcher comes to, it is the list of this name that is new.
  have hstep {u : Scan} (matcher : Matcher)
      (hu : Changed s u (.bare name) (.matched ⟨name, field, modifier, matcher⟩ i))
      (hblock : u.block = s.block)
      (hwaiting : value = [] → u.target = some .matcher ∧ matcher = .many [])
      (htaken : value ≠ [] → u.target = none ∧ inlineList? value = .ok matcher.items?) :
      Opens s u (.selection name) key value := by
    refine ⟨?_, nofun, fun o => ?_, fun o hne => (hu.others hne).1, fun hvalue => ?_,
      fun hvalue => ?_, fun _ => hblock ▸ hfree⟩
    · exact fun hk => (hasKey_pending hp hnew).mp hk rfl
    · by_cases ho : o = .selection name
      · subst ho
        exact iff_of_true (hu.own.2.mpr hfield) (.inr rfl)
      · simp [(hu.others ho).2, ho]
    · obtain ⟨htarget, rfl⟩ := hwaiting hvalue
      refine ⟨?_, hu.own.1⟩
      rw [Scan.openList?, htarget, hu.changed]
      rfl
    · obtain ⟨htarget, hitems⟩ := htaken hvalue
      exact ⟨htarget, hu.own.1.symm ▸ hitems⟩
  simp only at he
  split at he
  · rename_i hvalue
    obtain rfl := Except.ok.inj he
    refine hstep (.many []) ⟨hp, rfl, rfl, rfl, rfl, hnew⟩ rfl (fun _ => ⟨rfl, rfl⟩)
      fun hne => ?_
    exact absurd (List.isEmpty_iff.mp hvalue) hne
  · rename_i hvalue
    obtain ⟨items?, hitems, he⟩ := bind_ok.mp he
    have hsome : value ≠ [] := fun hnil => hvalue (List.isEmpty_iff.mpr hnil)
    cases items? with
    | none =>
      obtain rfl := Except.ok.inj he
      exact hstep (.one (scalar value)) ⟨hp, rfl, rfl, rfl, rfl, hnew⟩ rfl
        (fun hnil => absurd hnil hsome) fun _ => ⟨htarget, hitems⟩
    | some items =>
      obtain rfl := Except.ok.inj he
      exact hstep (.many items) ⟨hp, rfl, rfl, rfl, rfl, hnew⟩ rfl
        (fun hnil => absurd hnil hsome) fun _ => ⟨htarget, hitems⟩

theorem sameLists_bare (hp : t.pending = some (.bare name))
    (hr : t.record = s.close.record) (hseen : t.seen = s.seen)
    (hnew : name ∉ s.close.record.selectionNames) : SameLists s t := by
  have hbefore : s.close.record.selection? name = none := by
    rw [Record.selection?, List.find?_eq_none]
    intro sel hsel
    have hne : sel.name ≠ name := fun he => hnew (he ▸ List.mem_map_of_mem hsel)
    simpa using hne
  have hafter : t.close.record.selection? name = some { name } :=
    selection?_pending hp (hr ▸ hnew)
  have hother {name' : String} (hne : name' ≠ name) :
      t.close.record.selection? name' = s.close.record.selection? name' := by
    rw [Record.selection?_of_ne (Scan.selections_close hp) hne, hr, Record.selection?]
  constructor
  · rintro (f | name')
    · simp [Scan.HasKey, hseen]
    · by_cases hname : name' = name
      · subst hname
        simp [Scan.HasKey, hbefore, hafter]
      · simp only [Scan.HasKey, hother hname]
  · rintro (f | name')
    · simp [Scan.list?, Record.list?, hr]
    · by_cases hname : name' = name
      · subst hname
        simp [Scan.list?, Record.list?, hbefore, hafter, Matcher.items?]
      · simp only [Scan.list?, Record.list?, hother hname]

theorem effect_openSelection (htarget : s.target = none)
    (he : s.openSelection name value = .ok t) : Effect s t (some (.entry name value)) := by
  unfold Scan.openSelection at he
  simp only at he
  split at he
  · cases he
  · split at he
    · cases he
    · rename_i hnew
      obtain rfl := Except.ok.inj he
      refine .other rfl (sameLists_bare rfl rfl (by simp) fun hmem => ?_) (by simpa using htarget)
      exact hnew (List.contains_iff_mem.mpr hmem)

-- ---------------------------------------------------------------------------
-- Lines
-- ---------------------------------------------------------------------------

theorem effect_selectionEntry {i : Nat} (h : Sound s) (htarget : s.target = none)
    (hfree : ∀ b ∈ s.block, b.kind = .detection)
    (he : s.selectionEntry layout i key value = .ok t) :
    Effect s t (some (.entry key value)) := by
  unfold Scan.selectionEntry at he
  split at he
  · split at he
    · rename_i hp
      exact .list rfl (opens_matcherLine h htarget hfree hp he)
    · exact effect_openSelection htarget he
  · split at he
    · exact effect_openSelection htarget he
    · split at he
      · split at he
        · cases he
        · rename_i hp
          exact .list rfl (opens_matcherLine h htarget hfree hp he)
        · cases he
      · cases he

theorem effect_detectionLine (h : Tidy s) (hfree : ∀ b ∈ s.block, b.kind = .detection)
    (he : s.detectionLine layout l = .ok t) : Effect s t (some l.content) := by
  unfold Scan.detectionLine at he
  split at he
  · rename_i hcontent
    rw [hcontent]
    split at he
    · cases he
    · obtain ⟨o, happend⟩ := appends_addItem h he
      exact .item rfl happend
  · cases he
  · rename_i key value hcontent
    rw [hcontent]
    have hclosed : SameLists s { s with target := none } :=
      .of_eq (fun _ => .rfl) (fun _ => rfl) rfl rfl
    refine .of_closed hclosed rfl ?_
    simp only at he
    split at he
    · split at he
      · cases he
      · obtain ⟨terms, -, he⟩ := bind_ok.mp he
        obtain rfl := Except.ok.inj he
        refine .other rfl ((sameLists_close _).trans ?_) (by simp)
        exact .of_eq (fun _ => .rfl) (fun _ => rfl) rfl rfl
    · exact effect_selectionEntry (h.toSound.of_eq rfl rfl) rfl hfree he

theorem effect_topEntry {i : Nat} (h : Tidy s) (hfree : ∀ b ∈ s.block, b.kind = .detection)
    (hnew : key ∉ s.seen)
    (he : { s with seen := key :: s.seen, target := none }.topEntry i key value = .ok t) :
    Effect s t (some (.entry key value)) := by
  -- Only the keys of the fields have lists; any other leaves them as they are.
  have hother {u : Scan} (hkey : ∀ f, TopKey.ofName key ≠ .items f)
      (hseen : u.seen = key :: s.seen) (hitems : ∀ f, u.record.items f = s.record.items f)
      (hselections : u.record.selections = s.record.selections) (hpending : u.pending = s.pending)
      (hclosed : u.target = none) : Effect s u (some (.entry key value)) := by
    refine .other rfl (.of_eq (fun f => ?_) hitems hselections hpending) hclosed
    have hne : f.key ≠ key := fun he => hkey f (he ▸ ofName_key f)
    simp [hseen, hne]
  unfold Scan.topEntry at he
  split at he
  · rename_i hname
    obtain rfl := Except.ok.inj he
    exact hother (by simp [hname]) rfl (fun _ => rfl) rfl rfl rfl
  · rename_i hname
    obtain rfl := Except.ok.inj he
    exact hother (by simp [hname]) rfl (items_setText _ _ _) (selections_setText _ _ _) rfl rfl
  · rename_i f hname
    obtain rfl := key_of_ofName hname
    exact .list rfl (opens_openItems h hfree hnew he)
  · rename_i hname
    unfold Scan.openBlock at he
    split at he
    · obtain rfl := Except.ok.inj he
      exact hother (by simp [hname]) rfl (fun _ => rfl) rfl rfl rfl
    · cases he
  · rename_i hname
    split at he
    · obtain rfl := Except.ok.inj he
      exact hother (by simp [hname]) rfl (items_setText _ _ _) (selections_setText _ _ _) rfl rfl
    · cases he
  · cases he
  · rename_i hname
    split at he
    · cases he
    · obtain rfl := Except.ok.inj he
      exact hother (by simp [hname]) rfl (fun _ => rfl) rfl rfl rfl

theorem effect_topLine (h : Tidy s) (hfree : ∀ b ∈ s.block, b.kind = .detection)
    (he : s.topLine l = .ok t) : Effect s t (some l.content) := by
  unfold Scan.topLine at he
  split at he
  · rename_i hcontent
    obtain ⟨o, happend⟩ := appends_addItem h he
    exact .item (congrArg some hcontent) happend
  · cases he
  · rename_i key value hcontent
    rw [hcontent]
    split at he
    · cases he
    · split at he
      · cases he
      · rename_i hnew
        exact effect_topEntry h hfree (fun hmem => hnew (List.contains_iff_mem.mpr hmem)) he

theorem effect_logsourceLine (h : Tidy s) (htarget : s.target = none)
    (he : s.logsourceLine layout l = .ok t) : Effect s t (some l.content) := by
  unfold Scan.logsourceLine at he
  split at he
  · cases he
  · cases he
  · rename_i key value hcontent
    split at he
    · rename_i hkey
      split at he
      · cases he
      · obtain rfl := Except.ok.inj he
        rw [hcontent]
        have hproduct : SameLists s { s with
            seen := key :: s.seen
            record := s.record.setText .logType (scalar value) } := by
          refine .of_eq (fun f => ?_) (items_setText _ _ _) (selections_setText _ _ _) rfl
          have hne : f.key ≠ key := by subst hkey; cases f <;> decide
          simp [hne]
        split
        · exact .other rfl (hproduct.trans (sameLists_leave _)) rfl
        · exact .other rfl hproduct htarget
    · split at he
      · exact .of_closed (sameLists_leave s) rfl (effect_topLine h.leave nofun he)
      · cases he

theorem effect_line (h : Tidy s) (he : s.line l = .ok t) : Effect s t (some l.content) := by
  unfold Scan.line at he
  simp only at he
  have hplaced := h.placed (s.base.or (some l.indent))
  split at he
  · rename_i hblock
    refine .of_placed (effect_topLine (hplaced s.block h.quiet) ?_ he)
    simp [hblock]
  · rename_i b hblock
    split at he
    · have hline := effect_topLine (hplaced s.block h.quiet).leave nofun he
      exact .of_placed (hline.of_closed (sameLists_leave _) rfl)
    · rename_i layout _
      have hinside := hplaced (some { b with layout := some layout })
      split at he
      · rename_i hkind
        have htarget : s.target = none := by
          by_contra hne
          simpa [hkind] using h.quiet hne b hblock
        exact .of_placed (effect_logsourceLine (hinside (quiet_of_none htarget)) htarget he)
      · rename_i hkind
        have hfree : ∀ b' ∈ some { b with layout := some layout }, b'.kind = .detection := by
          rintro _ ⟨⟩
          exact hkind
        exact .of_placed (effect_detectionLine (hinside fun _ => hfree) hfree he)

def content? (raw : List Char) : Option Content :=
  match RawLine.ofChars raw with
  | .line l => some l.content
  | _ => none

/-- The step: a line adds an item to the open list, opens a list or closes one. -/
theorem effect_read (h : Tidy s) (he : s.read raw = .ok t) : Effect s t (content? raw) := by
  unfold Scan.read at he
  unfold content?
  cases hraw : RawLine.ofChars raw with
  | skipped =>
    rw [hraw] at he
    exact .skipped rfl (Except.ok.inj he).symm
  | documentMark =>
    simp only [hraw] at he
    split at he
    · cases he
    · exact .skipped rfl (Except.ok.inj he).symm
  | tabbed =>
    rw [hraw] at he
    cases he
  | line l =>
    rw [hraw] at he
    exact effect_line h he

theorem tidy_of_effect (h : Tidy s) (ht : Sound t) (he : Effect s t content) : Tidy t := by
  -- A field whose key has not been read has no items, and is given none.
  have hunread {f : ListField} (hnew : ¬s.HasKey (.field f))
      (hsame : t.list? (.field f) = s.list? (.field f)) : t.record.items f = [] := by
    have hitems : t.record.items f = s.record.items f := by
      simpa [Scan.list?, Record.list?] using hsame
    rw [hitems, h.unread f hnew]
  cases he with
  | skipped _ same => exact same ▸ h
  | @item o value _ he =>
    have htarget : s.target ≠ none := fun hnone => by
      simpa [Scan.openList?_of_none hnone] using he.before
    obtain ⟨o', items, hopen, hkey, hitems⟩ := h.opened htarget
    obtain rfl : o' = o := Option.some.inj (hopen.symm.trans he.before)
    refine ⟨ht, fun f hf => ?_, fun _ => ?_, he.quiet⟩
    · have hnew : ¬s.HasKey (.field f) := fun hk => hf ((he.keys (.field f)).mpr hk)
      exact hunread hnew (he.others _ fun hf => hnew (hf ▸ hkey))
    · have hown : t.list? o' = some (items ++ [scalar value]) := by
        rw [he.own, hitems, Option.map_some]
      exact ⟨o', _, he.after, (he.keys _).mpr hkey, hown⟩
  | @list o key value _ he =>
    refine ⟨ht, fun f hf => ?_, fun hne => ?_, he.quiet⟩
    · have hnew : ¬(s.HasKey (.field f) ∨ .field f = o) := fun hk => hf ((he.keys _).mpr hk)
      exact hunread (fun hk => hnew (.inl hk)) (he.others _ fun hf => hnew (.inr hf))
    · have hvalue : value = [] := by
        by_contra hvalue
        exact hne (he.taken hvalue).1
      obtain ⟨hopen, hitems⟩ := he.waiting hvalue
      exact ⟨o, [], hopen, (he.keys o).mpr (.inr rfl), hitems⟩
  | other _ same closed =>
    refine ⟨ht, fun f hf => ?_, fun hne => absurd closed hne, quiet_of_none closed⟩
    exact hunread (fun hk => hf ((same.keys (.field f)).mpr hk)) (same.lists _)

theorem tidy_read (h : Tidy s) (hraw : ∀ c ∈ raw, Text.isBreak c = false)
    (he : s.read raw = .ok t) : Tidy t :=
  tidy_of_effect h (sound_read h.toSound hraw he) (effect_read h he)

end RuleText

end SigmaDesk
