import Mathlib.Data.List.Nodup
import SigmaDesk.Proofs.RuleText.Lists

/-!
# Items and their keys

Every list of a rule that is read has the items on its key line, or those of the item lines up to
the next key line. And every item line follows the key line of just one list.
-/

namespace SigmaDesk.RuleText

variable {s t u : Scan} {o o' : ItemList} {key key' : String} {value value' raw : List Char}
  {raws : List (List Char)} {i j n : Nat} {content : Option Content}

-- ---------------------------------------------------------------------------
-- Key lines
-- ---------------------------------------------------------------------------

def isKeyLine (raw : List Char) : Bool :=
  match content? raw with
  | some (.entry _ _) => true
  | _ => false

def item? (raw : List Char) : Option String :=
  match content? raw with
  | some (.item value) => some (scalar value)
  | _ => none

def lead (raws : List (List Char)) : List (List Char) := raws.takeWhile fun raw => !isKeyLine raw

def linesBelow (raws : List (List Char)) (i : Nat) : List (List Char) :=
  lead (raws.drop (i + 1))

def Under (raws : List (List Char)) (i j : Nat) : Prop := i < j ∧ j ≤ i + (linesBelow raws i).length

/-- When the lines are read from a state on, line `i` gives a list its key. -/
inductive KeyLine (o : ItemList) (key : String) (value : List Char) :
    Scan → List (List Char) → Nat → Prop
  | here {s t : Scan} {raw : List Char} {raws : List (List Char)} (hread : s.read raw = .ok t)
    (hcontent : content? raw = some (.entry key value)) (hbefore : ¬s.HasKey o)
    (hafter : t.HasKey o) : KeyLine o key value s (raw :: raws) 0
  | later {s t : Scan} {raw : List Char} {raws : List (List Char)} {i : Nat}
    (hread : s.read raw = .ok t) (h : KeyLine o key value t raws i) :
    KeyLine o key value s (raw :: raws) (i + 1)

@[simp] theorem lead_nil : lead [] = [] := rfl

theorem lead_of_key (h : isKeyLine raw = true) (raws : List (List Char)) :
    lead (raw :: raws) = [] := by
  simp [lead, h]

theorem lead_of_other (h : isKeyLine raw = false) (raws : List (List Char)) :
    lead (raw :: raws) = raw :: lead raws := by
  simp [lead, h]

theorem Under.zero (h : j < (lead raws).length) : Under (raw :: raws) 0 (j + 1) := by
  have hbelow : linesBelow (raw :: raws) 0 = lead raws := rfl
  exact ⟨Nat.succ_pos j, by rw [hbelow]; omega⟩

theorem Under.succ (h : Under raws i j) : Under (raw :: raws) (i + 1) (j + 1) := by
  have hbelow : linesBelow (raw :: raws) (i + 1) = linesBelow raws i := rfl
  obtain ⟨hlt, hle⟩ := h
  exact ⟨Nat.succ_lt_succ hlt, by rw [hbelow]; omega⟩

theorem isKeyLine_entry (h : content? raw = some (.entry key value)) : isKeyLine raw = true := by
  rw [isKeyLine, h]

-- ---------------------------------------------------------------------------
-- Runs
-- ---------------------------------------------------------------------------

/-- Lines that are read one after the other, with what each does to the lists. -/
inductive Course : Scan → List (List Char) → Scan → Prop
  | nil {s : Scan} : Course s [] s
  | cons {s t u : Scan} {raw : List Char} {raws : List (List Char)} (tidy : Tidy s)
    (read : s.read raw = .ok u) (effect : Effect s u (content? raw)) (rest : Course u raws t) :
    Course s (raw :: raws) t

theorem course_of_readAll (h : Tidy s) (hraws : ∀ raw ∈ raws, ∀ c ∈ raw, Text.isBreak c = false)
    (he : s.readAll n raws = .ok t) : Course s raws t := by
  induction raws generalizing s n with
  | nil =>
    obtain rfl := Except.ok.inj he
    exact .nil
  | cons raw raws ih =>
    obtain ⟨hraw, hraws⟩ := List.forall_mem_cons.mp hraws
    obtain ⟨u, hread, he⟩ := readAll_cons_eq_ok_iff.mp he
    exact .cons h hread (effect_read h hread) (ih (tidy_read h hraw hread) hraws he)

theorem Effect.hasKey (h : Effect s t content) (hk : s.HasKey o) : t.HasKey o := by
  cases h with
  | skipped _ same => exact same ▸ hk
  | item _ h => exact (h.keys o).mpr hk
  | list _ h => exact (h.keys o).mpr (.inl hk)
  | other _ same => exact (same.keys o).mpr hk

theorem Opens.not_open (h : Opens s t o' key value) (hne : o ≠ o') : t.openList? ≠ some o := by
  by_cases hvalue : value = []
  · rw [(h.waiting hvalue).1]
    exact fun he => hne (Option.some.inj he).symm
  · simp [Scan.openList?_of_none (h.taken hvalue).1]

theorem Tidy.hasKey_open (h : Tidy s) (ho : s.openList? = some o) : s.HasKey o := by
  have htarget : s.target ≠ none := fun hnone => by simp [Scan.openList?_of_none hnone] at ho
  obtain ⟨p, items, hopen, hkey, -⟩ := h.opened htarget
  exact Option.some.inj (hopen.symm.trans ho) ▸ hkey

/-- A list that has its key, and is not open, is complete. -/
theorem Course.list?_of_closed (h : Course s raws t) (hk : s.HasKey o)
    (hopen : s.openList? ≠ some o) : t.list? o = s.list? o := by
  induction h with
  | nil => rfl
  | @cons s t u raw raws tidy read effect rest ih =>
    have hku := effect.hasKey hk
    cases effect with
    | skipped _ same =>
      subst same
      exact ih hk hopen
    | @item o' value _ h =>
      have hne : o ≠ o' := fun he => hopen (he ▸ h.before)
      rw [ih hku fun ho => hne (Option.some.inj (ho.symm.trans h.after)), h.others o hne]
    | @list o' key value _ h =>
      have hne : o ≠ o' := fun he => h.new (he ▸ hk)
      rw [ih hku (h.not_open hne), h.others o hne]
    | other _ same closed =>
      rw [ih hku (by simp [Scan.openList?_of_none closed]), same.lists]

/-- An open list takes the items up to the next key line, and no others. -/
theorem Course.list?_of_open (h : Course s raws t) (hk : s.HasKey o)
    (hopen : s.openList? = some o) :
    t.list? o = (s.list? o).map (· ++ (lead raws).filterMap item?) := by
  induction h with
  | nil => simp
  | @cons s t u raw raws tidy read effect rest ih =>
    have hku := effect.hasKey hk
    -- A key line closes the list, and there are no more items for it.
    have hkeyLine (hline : isKeyLine raw = true) (hclosed : u.openList? ≠ some o)
        (hsame : u.list? o = s.list? o) :
        t.list? o = (s.list? o).map (· ++ (lead (raw :: raws)).filterMap item?) := by
      rw [rest.list?_of_closed hku hclosed, hsame, lead_of_key hline]
      simp
    cases effect with
    | skipped hcontent same =>
      subst same
      rw [ih hk hopen, lead_of_other (by rw [isKeyLine, hcontent]),
        List.filterMap_cons_none (by rw [item?, hcontent])]
    | @item o' value hcontent h =>
      obtain rfl : o' = o := Option.some.inj (h.before.symm.trans hopen)
      rw [ih hku h.after, h.own, lead_of_other (by rw [isKeyLine, hcontent]),
        List.filterMap_cons_some (by rw [item?, hcontent])]
      cases s.list? o' <;> simp
    | @list o' key value hcontent h =>
      have hne : o ≠ o' := fun he => h.new (he ▸ hk)
      exact hkeyLine (isKeyLine_entry hcontent) (h.not_open hne) (h.others o hne)
    | other hcontent same closed =>
      refine hkeyLine (isKeyLine_entry hcontent) ?_ (same.lists o)
      simp [Scan.openList?_of_none closed]

-- ---------------------------------------------------------------------------
-- One key line for each list
-- ---------------------------------------------------------------------------

theorem KeyLine.new (h : KeyLine o key value s raws i) (hc : Course s raws t) : ¬s.HasKey o := by
  induction h with
  | here hread hcontent hbefore hafter => exact hbefore
  | later hread h ih =>
    cases hc with
    | cons tidy read effect rest =>
      obtain rfl := Except.ok.inj (hread.symm.trans read)
      exact fun hk => ih rest (effect.hasKey hk)

theorem KeyLine.unique (h : KeyLine o key value s raws i) (h' : KeyLine o key' value' s raws j)
    (hc : Course s raws t) : i = j := by
  induction h generalizing j with
  | here hread hcontent hbefore hafter =>
    cases hc with
    | cons tidy read effect rest =>
      cases h' with
      | here => rfl
      | later hread' h' =>
        obtain rfl := Except.ok.inj (hread.symm.trans read)
        obtain rfl := Except.ok.inj (hread.symm.trans hread')
        exact absurd hafter (h'.new rest)
  | later hread h ih =>
    cases hc with
    | cons tidy read effect rest =>
      obtain rfl := Except.ok.inj (hread.symm.trans read)
      cases h' with
      | here hread' _ _ hafter =>
        obtain rfl := Except.ok.inj (hread.symm.trans hread')
        exact absurd hafter (h.new rest)
      | later hread' h' =>
        obtain rfl := Except.ok.inj (hread.symm.trans hread')
        rw [ih h' rest]

theorem KeyLine.list_unique (h : KeyLine o key value s raws i)
    (h' : KeyLine o' key' value' s raws i) (hc : Course s raws t) : o = o' := by
  induction h with
  | here hread hcontent hbefore hafter =>
    cases hc with
    | cons tidy read effect rest =>
      cases h' with
      | here hread' _ hbefore' hafter' =>
        obtain rfl := Except.ok.inj (hread.symm.trans read)
        obtain rfl := Except.ok.inj (hread.symm.trans hread')
        cases effect with
        | skipped hnone => cases hcontent.symm.trans hnone
        | item hitem => cases hcontent.symm.trans hitem
        | list _ h =>
          have hlist := ((h.keys _).mp hafter).resolve_left hbefore
          exact hlist.trans (((h.keys _).mp hafter').resolve_left hbefore').symm
        | other _ same => exact absurd ((same.keys _).mp hafter) hbefore
  | later hread h ih =>
    cases hc with
    | cons tidy read effect rest =>
      cases h' with
      | later hread' h' =>
        obtain rfl := Except.ok.inj (hread.symm.trans read)
        obtain rfl := Except.ok.inj (hread.symm.trans hread')
        exact ih h' rest

theorem KeyLine.entry (h : KeyLine o key value s raws i) :
    ∃ raw, raws[i]? = some raw ∧ content? raw = some (.entry key value) := by
  induction h with
  | here hread hcontent => exact ⟨_, rfl, hcontent⟩
  | later hread h ih => exact ih

-- ---------------------------------------------------------------------------
-- The items of a list
-- ---------------------------------------------------------------------------

/-- A list stands under line `i`, its key line: it has the items on that line or, where it has no
value, those of the lines below. -/
structure Stands (o : ItemList) (items : Option (List String)) (s : Scan)
    (raws : List (List Char)) (i : Nat) (key : String) (value : List Char) : Prop where
  line : KeyLine o key value s raws i
  heads : ∀ f, o = .field f → key = f.key
  follow : value = [] → items = some ((linesBelow raws i).filterMap item?)
  inline : value ≠ [] → inlineList? value = .ok items

theorem Stands.later {items : Option (List String)} (h : Stands o items u raws i key value)
    (hread : s.read raw = .ok u) : Stands o items s (raw :: raws) (i + 1) key value :=
  ⟨.later hread h.line, h.heads, h.follow, h.inline⟩

theorem Course.stands (h : Course s raws t) (hnew : ¬s.HasKey o) :
    (∃ i key value, Stands o (t.list? o) s raws i key value) ∨
      (∀ i key value, ¬KeyLine o key value s raws i) ∧ t.list? o = s.list? o := by
  induction h with
  | nil => exact .inr ⟨nofun, rfl⟩
  | @cons s t u raw raws tidy read effect rest ih =>
    -- The line is not that of the list, so what the rest gives is what the lines give.
    have hlater (hnew' : ¬u.HasKey o) (hsame : u.list? o = s.list? o) :
        (∃ i key value, Stands o (t.list? o) s (raw :: raws) i key value) ∨
          (∀ i key value, ¬KeyLine o key value s (raw :: raws) i) ∧ t.list? o = s.list? o := by
      rcases ih hnew' with ⟨i, key, value, h⟩ | ⟨hnone, hlist⟩
      · exact .inl ⟨i + 1, key, value, h.later read⟩
      · refine .inr ⟨fun i key value h => ?_, hlist.trans hsame⟩
        cases h with
        | here hread _ _ hafter =>
          obtain rfl := Except.ok.inj (hread.symm.trans read)
          exact hnew' hafter
        | later hread h =>
          obtain rfl := Except.ok.inj (hread.symm.trans read)
          exact hnone _ key value h
    cases effect with
    | skipped _ same => exact hlater (same ▸ hnew) (same ▸ rfl)
    | @item o' value _ h =>
      have hne : o ≠ o' := fun he => hnew (he ▸ tidy.hasKey_open h.before)
      exact hlater (fun hk => hnew ((h.keys o).mp hk)) (h.others o hne)
    | @list o' key value hcontent h =>
      by_cases ho : o = o'
      · subst ho
        have hk : u.HasKey o := (h.keys o).mpr (.inr rfl)
        refine .inl ⟨0, key, value, .here read hcontent hnew hk, h.heads, fun hvalue => ?_,
          fun hvalue => ?_⟩
        · obtain ⟨hopen, hnil⟩ := h.waiting hvalue
          rw [rest.list?_of_open hk hopen, hnil]
          rfl
        · obtain ⟨hclosed, hitems⟩ := h.taken hvalue
          rw [rest.list?_of_closed hk (by simp [Scan.openList?_of_none hclosed]), hitems]
      · exact hlater (fun hk => ((h.keys o).mp hk).elim hnew ho) (h.others o ho)
    | other _ same => exact hlater (fun hk => hnew ((same.keys o).mp hk)) (same.lists o)

theorem KeyLine.stands (h : KeyLine o key value s raws i) (hc : Course s raws t) :
    Stands o (t.list? o) s raws i key value := by
  rcases hc.stands (h.new hc) with ⟨i', key', value', hstands⟩ | ⟨hnone, -⟩
  · obtain rfl := h.unique hstands.line hc
    obtain ⟨raw, hraw, hcontent⟩ := h.entry
    obtain ⟨raw', hraw', hcontent'⟩ := hstands.line.entry
    obtain rfl : raw = raw' := Option.some.inj (hraw.symm.trans hraw')
    obtain ⟨rfl, rfl⟩ := Content.entry.inj (Option.some.inj (hcontent.symm.trans hcontent'))
    exact hstands
  · exact absurd h (hnone i key value)

-- ---------------------------------------------------------------------------
-- The list of an item line
-- ---------------------------------------------------------------------------

/-- An item line follows the key line of a list, or else it goes to the list that is open. -/
theorem Course.under (h : Course s raws t) (hj : raws[j]? = some raw)
    (hitem : content? raw = some (.item value)) :
    (∃ o key i, KeyLine o key [] s raws i ∧ Under raws i j) ∨
      s.openList? ≠ none ∧ j < (lead raws).length := by
  induction h generalizing j with
  | nil => cases hj
  | @cons s t u raw' raws tidy read effect rest ih =>
    cases j with
    | zero =>
      obtain rfl : raw' = raw := Option.some.inj hj
      cases effect with
      | item _ h =>
        rw [lead_of_other (by rw [isKeyLine, hitem])]
        exact .inr ⟨by simp [h.before], Nat.succ_pos _⟩
      | skipped hcontent => cases hitem.symm.trans hcontent
      | list hcontent => cases hitem.symm.trans hcontent
      | other hcontent => cases hitem.symm.trans hcontent
    | succ j =>
      rcases ih hj with ⟨o, key, i, hline, hunder⟩ | ⟨hopen, hlt⟩
      · exact .inl ⟨o, key, i + 1, .later read hline, hunder.succ⟩
      -- No key line stands between, so it is this line that may have opened the list.
      · cases effect with
        | skipped hcontent same =>
          rw [lead_of_other (by rw [isKeyLine, hcontent])]
          exact .inr ⟨same ▸ hopen, Nat.succ_lt_succ hlt⟩
        | item hcontent h =>
          rw [lead_of_other (by rw [isKeyLine, hcontent])]
          exact .inr ⟨by simp [h.before], Nat.succ_lt_succ hlt⟩
        | @list o key value hcontent h =>
          obtain rfl : value = [] := by
            by_contra hne
            exact hopen (Scan.openList?_of_none (h.taken hne).1)
          have hline : KeyLine o key [] s (raw' :: raws) 0 :=
            .here read hcontent h.new ((h.keys o).mpr (.inr rfl))
          exact .inl ⟨o, key, 0, hline, .zero hlt⟩
        | other _ _ closed => exact absurd (Scan.openList?_of_none closed) hopen

theorem Under.not_isKeyLine {k : Nat} (h : Under raws i j) (hi : i < k) (hj : k ≤ j)
    (hraw : raws[k]? = some raw) : isKeyLine raw = false := by
  have hlt : k - (i + 1) < (linesBelow raws i).length := by
    obtain ⟨-, hle⟩ := h
    omega
  have hat := List.prefix_iff_getElem?.mp (List.takeWhile_prefix _) (k - (i + 1)) hlt
  have hindex : i + 1 + (k - (i + 1)) = k := Nat.add_sub_of_le hi
  rw [List.getElem?_drop, hindex, hraw] at hat
  have hmem : raw ∈ linesBelow raws i := Option.some.inj hat ▸ List.getElem_mem hlt
  simpa using List.mem_takeWhile_imp hmem

theorem Under.unique {i' : Nat} (h : Under raws i j) (h' : Under raws i' j)
    (hi : KeyLine o key value s raws i) (hi' : KeyLine o' key' value' s raws i') : i = i' := by
  obtain ⟨raw, hraw, hline⟩ := hi.entry
  obtain ⟨raw', hraw', hline'⟩ := hi'.entry
  rcases Nat.lt_trichotomy i i' with hlt | heq | hlt
  · have hnot := h.not_isKeyLine hlt h'.1.le hraw'
    simp [isKeyLine_entry hline'] at hnot
  · exact heq
  · have hnot := h'.not_isKeyLine hlt h.1.le hraw
    simp [isKeyLine_entry hline] at hnot

-- ---------------------------------------------------------------------------
-- Texts
-- ---------------------------------------------------------------------------

/-- What a record has of the items of the lines that it is read from. Each of its lists has those of
its key line, or is a field that the lines do not mention. And each item line is one of those below
the key line of just one list, which the record has. -/
structure ItemsKept (raws : List (List Char)) (r : Record) : Prop where
  field : ∀ f, (∃ i key value, Stands (.field f) (some (r.items f)) .start raws i key value) ∨
    (∀ i key value, ¬KeyLine (.field f) key value .start raws i) ∧ r.items f = []
  selection : ∀ sel ∈ r.selections, ∀ items, sel.matcher = .many items →
    ∃ i key value, Stands (.selection sel.name) (some items) .start raws i key value
  once : ∀ o key value i key' value' j, KeyLine o key value .start raws i →
    KeyLine o key' value' .start raws j → i = j
  item : ∀ j raw value, raws[j]? = some raw → content? raw = some (.item value) →
    ∃! p : ItemList × Nat,
      (∃ key, KeyLine p.1 key [] .start raws p.2) ∧ Under raws p.2 j ∧ (r.list? p.1).isSome

theorem tidy_start : Tidy .start where
  toSound := sound_start
  unread f _ := by cases f <;> rfl
  opened hne := absurd rfl hne
  quiet := quiet_of_none rfl

theorem selection?_of_mem {r : Record} {sel : Selection} (h : r.selectionNames.Nodup)
    (hsel : sel ∈ r.selections) : r.selection? sel.name = some sel := by
  obtain ⟨sel', hfind⟩ : ∃ sel', r.selection? sel.name = some sel' :=
    Option.isSome_iff_exists.mp (List.find?_isSome.mpr ⟨sel, hsel, by simp⟩)
  have hname : sel'.name = sel.name := by simpa using List.find?_some hfind
  rw [hfind, List.inj_on_of_nodup_map h (List.mem_of_find?_eq_some hfind) hsel hname]

/-- No item of a text that is read is lost, moved or given to another list. -/
theorem parse_itemsKept {text : String} {r : Record} (h : parse text = .ok r) :
    ItemsKept (Text.lines text.toList) r := by
  have hdistinct := (readable_of_parse h).distinct
  obtain ⟨t, ht, hr⟩ := bind_ok.mp h
  obtain rfl : t.close.record = r := Except.ok.inj hr
  have hcourse : Course .start (Text.lines text.toList) t :=
    course_of_readAll tidy_start (fun _ hl _ => Text.isBreak_of_mem_lines hl) ht
  have hstart (o : ItemList) : ¬Scan.start.HasKey o := by
    cases o <;> simp [Scan.HasKey, Scan.start, Scan.close, Record.selection?]
  constructor
  · intro f
    rcases hcourse.stands (hstart (.field f)) with hstands | ⟨hnone, hlist⟩
    · exact .inl hstands
    · have hempty : Scan.start.list? (.field f) = some [] := by cases f <;> rfl
      exact .inr ⟨hnone, Option.some.inj (hlist.trans hempty)⟩
  · intro sel hsel items hitems
    have hsome : t.list? (.selection sel.name) = some items := by
      rw [Scan.list?, Record.list?, selection?_of_mem hdistinct hsel, Option.bind_some, hitems,
        Matcher.items?]
    rcases hcourse.stands (hstart (.selection sel.name)) with hstands | ⟨-, hlist⟩
    · rwa [hsome] at hstands
    · cases hsome.symm.trans hlist
  · intro o key value i key' value' j hi hj
    exact hi.unique hj hcourse
  · intro j raw value hj hitem
    -- No list is open at the start, so a key line stands above.
    obtain ⟨o, key, i, hline, hunder⟩ :
        ∃ o key i, KeyLine o key [] .start (Text.lines text.toList) i ∧ Under _ i j := by
      refine (hcourse.under hj hitem).resolve_right ?_
      exact fun hopen => hopen.1 (Scan.openList?_of_none rfl)
    refine ⟨(o, i), ⟨⟨key, hline⟩, hunder, ?_⟩, ?_⟩
    · exact Option.isSome_iff_exists.mpr ⟨_, (hline.stands hcourse).follow rfl⟩
    · rintro ⟨o', i'⟩ ⟨⟨key', hline'⟩, hunder', -⟩
      obtain rfl := hunder'.unique hunder hline' hline
      exact congrArg (·, i') (hline'.list_unique hline hcourse)

def itemsText : String :=
  "tags:\n- a\n\n# b\n- 'c'\nreferences: [x, y]\ndetection:\n  sel:\n    Image:\n" ++
    "      - z\n    # the last\n      - \"\"\n  condition: sel\n"

theorem parse_itemsKept_itemsText : ∃ r,
    parse itemsText = .ok r ∧ r.tags = ["a", "c"] ∧ r.references = ["x", "y"] ∧
      r.selections = [⟨"sel", "Image", none, .many ["z", ""]⟩] ∧
      ItemsKept (Text.lines itemsText.toList) r := by
  have hparse : parse itemsText = .ok { ({} : Record) with
      tags := ["a", "c"]
      references := ["x", "y"]
      selections := [⟨"sel", "Image", none, .many ["z", ""]⟩]
      condition := ⟨["sel"]⟩ } := by decide +kernel
  exact ⟨_, hparse, rfl, rfl, rfl, parse_itemsKept hparse⟩

end SigmaDesk.RuleText
