import SigmaDesk.Proofs.RuleText.Lists
import SigmaDesk.Proofs.RuleText.Refusal

/-!
# Keys outside the blocks

A key outside the blocks is entered once, by a line of its own, and the identifier of a rule is the
value on the line that enters the key `id`.
-/

namespace SigmaDesk.RuleText

variable {s t u : Scan} {name key : String} {raw value : List Char}
  {raws : List (List Char)} {l : Line} {layout : Layout} {content : Option Content} {n i line : Nat}

-- ---------------------------------------------------------------------------
-- Single lines
-- ---------------------------------------------------------------------------

structure SameKeys (s t : Scan) : Prop where
  seen : t.seen = s.seen
  id : t.record.id = s.record.id

def Scan.DetectionOpen (s : Scan) : Prop := ∃ b ∈ s.block, b.kind = .detection

/-- What a line does to the keys. An entry enters its key, which must be new, unless it stands in a
detection block. -/
inductive Enters (s t : Scan) : Option Content → Prop
  | none {content : Option Content} (same : SameKeys s t)
    (inside : ∀ key value, content = some (.entry key value) → s.DetectionOpen) : Enters s t content
  | key {key : String} {value : List Char} (new : key ∉ s.seen) (seen : t.seen = key :: s.seen)
    (id : t.record.id = if key = "id" then identifier? (scalar value) else s.record.id) :
    Enters s t (some (.entry key value))

theorem SameKeys.refl (s : Scan) : SameKeys s s := ⟨rfl, rfl⟩

theorem SameKeys.trans (h : SameKeys s t) (h' : SameKeys t u) : SameKeys s u :=
  ⟨h'.seen.trans h.seen, h'.id.trans h.id⟩

theorem sameKeys_close (s : Scan) : SameKeys s s.close := by
  cases h : s.pending <;> simp only [Scan.close, h] <;> exact ⟨rfl, rfl⟩

theorem sameKeys_leave (s : Scan) : SameKeys s s.leave := (sameKeys_close s).trans ⟨rfl, rfl⟩

theorem sameKeys_addItem (he : s.addItem value = .ok t) : SameKeys s t := by
  unfold Scan.addItem at he
  split at he
  · rename_i f _
    obtain rfl := Except.ok.inj he
    exact ⟨rfl, by cases f <;> rfl⟩
  · obtain rfl := Except.ok.inj he
    exact ⟨rfl, rfl⟩
  · cases he

theorem sameKeys_openItems {f : ListField} (he : s.openItems f key value = .ok t) :
    SameKeys s t := by
  unfold Scan.openItems at he
  split at he
  · obtain rfl := Except.ok.inj he
    exact ⟨rfl, rfl⟩
  · obtain ⟨items?, -, he⟩ := bind_ok.mp he
    cases items? with
    | none => cases he
    | some items =>
      obtain rfl := Except.ok.inj he
      exact ⟨rfl, by cases f <;> rfl⟩

theorem sameKeys_openBlock {kind : BlockKind} (he : s.openBlock kind i key value = .ok t) :
    SameKeys s t := by
  unfold Scan.openBlock at he
  split at he
  · obtain rfl := Except.ok.inj he
    exact ⟨rfl, rfl⟩
  · cases he

theorem ofName_eq_id_iff : TopKey.ofName key = .id ↔ key = "id" := by
  refine ⟨fun h => ?_, fun h => h ▸ rfl⟩
  by_cases hmem : key ∈ ruleKeys
  · have hall : ∀ k ∈ ruleKeys, TopKey.ofName k = .id → k = "id" := by decide
    exact hall key hmem h
  · rw [ofName_of_not_mem hmem] at h
    cases h

theorem topEntry_spec (he : s.topEntry i key value = .ok t) : t.seen = s.seen ∧
    t.record.id = if key = "id" then identifier? (scalar value) else s.record.id := by
  -- Whatever else a key may mean, it leaves the identifier alone.
  have hother (hne : TopKey.ofName key ≠ .id) (h : SameKeys s t) : t.seen = s.seen ∧
      t.record.id = if key = "id" then identifier? (scalar value) else s.record.id := by
    rw [if_neg (mt ofName_eq_id_iff.mpr hne)]
    exact ⟨h.seen, h.id⟩
  unfold Scan.topEntry at he
  split at he
  · rename_i hid
    obtain rfl := Except.ok.inj he
    rw [if_pos (ofName_eq_id_iff.mp hid)]
    exact ⟨rfl, rfl⟩
  · rename_i f hname
    obtain rfl := Except.ok.inj he
    exact hother (by simp [hname]) ⟨rfl, by cases f <;> rfl⟩
  · rename_i hname
    exact hother (by simp [hname]) (sameKeys_openItems he)
  · rename_i hname
    exact hother (by simp [hname]) (sameKeys_openBlock he)
  · rename_i hname
    split at he
    · obtain rfl := Except.ok.inj he
      exact hother (by simp [hname]) ⟨rfl, rfl⟩
    · cases he
  · cases he
  · rename_i hname
    split at he
    · cases he
    · obtain rfl := Except.ok.inj he
      exact hother (by simp [hname]) ⟨rfl, rfl⟩

theorem enters_topLine (he : s.topLine l = .ok t) : Enters s t (some l.content) := by
  unfold Scan.topLine at he
  split at he
  · rename_i hcontent
    rw [hcontent]
    exact .none (sameKeys_addItem he) nofun
  · cases he
  · rename_i key value hcontent
    rw [hcontent]
    split at he
    · cases he
    · split at he
      · cases he
      · rename_i hnew
        obtain ⟨hseen, hid⟩ := topEntry_spec he
        exact .key (fun hmem => hnew (List.contains_iff_mem.mpr hmem)) hseen hid

theorem Enters.of_sameKeys (h : SameKeys s t) (hcontent : Enters t u content)
    (hopen : t.DetectionOpen → s.DetectionOpen) : Enters s u content := by
  cases hcontent with
  | none same inside => exact .none (h.trans same) fun key value hc => hopen (inside key value hc)
  | key new seen id => exact .key (h.seen ▸ new) (h.seen ▸ seen) (h.id ▸ id)

theorem enters_logsourceLine (he : s.logsourceLine layout l = .ok t) :
    Enters s t (some l.content) := by
  unfold Scan.logsourceLine at he
  split at he
  · cases he
  · cases he
  · rename_i key value hcontent
    rw [hcontent]
    split at he
    · rename_i hkey
      split at he
      · cases he
      · rename_i hnew
        have hnew' : key ∉ s.seen := fun hmem => hnew (List.contains_iff_mem.mpr hmem)
        have hne : key ≠ "id" := by
          rw [hkey]
          decide
        obtain rfl := Except.ok.inj he
        split
        · have hleave := sameKeys_leave { s with
            seen := key :: s.seen
            record := s.record.setText .logType (scalar value) }
          exact .key hnew' hleave.seen (by rw [if_neg hne]; exact hleave.id)
        · exact .key hnew' rfl (by rw [if_neg hne]; rfl)
    · split at he
      · have htop := enters_topLine he
        rw [hcontent] at htop
        refine htop.of_sameKeys (sameKeys_leave s) ?_
        rintro ⟨b, hb, -⟩
        cases hb
      · cases he

theorem sameKeys_openSelection (he : s.openSelection name value = .ok t) : SameKeys s t := by
  unfold Scan.openSelection at he
  simp only at he
  split at he
  · cases he
  · split at he
    · cases he
    · obtain rfl := Except.ok.inj he
      exact (sameKeys_close s).trans ⟨rfl, rfl⟩

theorem sameKeys_matcherLine (he : s.matcherLine name i key value = .ok t) : SameKeys s t := by
  obtain ⟨⟨field, modifier⟩, -, he⟩ := bind_ok.mp he
  simp only at he
  split at he
  · obtain rfl := Except.ok.inj he
    exact ⟨rfl, rfl⟩
  · obtain ⟨items?, -, he⟩ := bind_ok.mp he
    cases items? <;> obtain rfl := Except.ok.inj he <;> exact ⟨rfl, rfl⟩

theorem sameKeys_selectionEntry (he : s.selectionEntry layout i key value = .ok t) :
    SameKeys s t := by
  unfold Scan.selectionEntry at he
  split at he
  · split at he
    · exact sameKeys_matcherLine he
    · exact sameKeys_openSelection he
  · split at he
    · exact sameKeys_openSelection he
    · split at he
      · split at he
        · cases he
        · exact sameKeys_matcherLine he
        · cases he
      · cases he

theorem sameKeys_detectionLine (he : s.detectionLine layout l = .ok t) : SameKeys s t := by
  have hclosed : SameKeys s { s with target := none } := ⟨rfl, rfl⟩
  unfold Scan.detectionLine at he
  split at he
  · split at he
    · cases he
    · exact sameKeys_addItem he
  · cases he
  · simp only at he
    split at he
    · split at he
      · cases he
      · obtain ⟨terms, -, he⟩ := bind_ok.mp he
        obtain rfl := Except.ok.inj he
        exact (hclosed.trans (sameKeys_close _)).trans ⟨rfl, rfl⟩
    · exact hclosed.trans (sameKeys_selectionEntry he)

theorem enters_line (he : s.line l = .ok t) : Enters s t (some l.content) := by
  unfold Scan.line at he
  simp only at he
  have hbase : SameKeys s { s with base := s.base.or (some l.indent) } := ⟨rfl, rfl⟩
  split at he
  · exact (enters_topLine he).of_sameKeys hbase id
  · rename_i b hblock
    split at he
    · refine (enters_topLine he).of_sameKeys (hbase.trans (sameKeys_leave _)) ?_
      rintro ⟨b, hb, -⟩
      cases hb
    · rename_i layout _
      have hinside : SameKeys s { s with
          base := s.base.or (some l.indent)
          block := some { b with layout := some layout } } := ⟨rfl, rfl⟩
      split at he
      · rename_i hkind
        refine (enters_logsourceLine he).of_sameKeys hinside ?_
        rintro ⟨b', hb', hkind'⟩
        obtain rfl := Option.some.inj hb'
        cases hkind.symm.trans hkind'
      · rename_i hkind
        exact .none (hinside.trans (sameKeys_detectionLine he)) fun _ _ _ => ⟨b, hblock, hkind⟩

/-- The step: a line enters a new key, or leaves the keys as they are. -/
theorem enters_read (he : s.read raw = .ok t) : Enters s t (content? raw) := by
  unfold Scan.read at he
  unfold content?
  cases hraw : RawLine.ofChars raw with
  | skipped =>
    rw [hraw] at he
    obtain rfl := Except.ok.inj he
    exact .none (.refl s) nofun
  | documentMark =>
    simp only [hraw] at he
    split at he
    · cases he
    · obtain rfl := Except.ok.inj he
      exact .none (.refl s) nofun
  | tabbed =>
    rw [hraw] at he
    cases he
  | line l =>
    rw [hraw] at he
    exact enters_line he

-- ---------------------------------------------------------------------------
-- Runs of lines
-- ---------------------------------------------------------------------------

/-- When lines are read from number `n` on, this line enters a key: the key has not been seen before
it, and has been after it. -/
def EntersAt (key : String) (s : Scan) (n : Nat) (raws : List (List Char)) (line : Nat) : Prop :=
  ∃ pre raw post t u, raws = pre ++ raw :: post ∧ line = n + pre.length ∧
    s.readAll n pre = .ok t ∧ t.read raw = .ok u ∧ key ∉ t.seen ∧ key ∈ u.seen

theorem Enters.mem_seen (h : Enters s t content) (hseen : key ∈ s.seen) : key ∈ t.seen := by
  cases h with
  | none same => exact same.seen ▸ hseen
  | key _ seen => exact seen ▸ List.mem_cons_of_mem _ hseen

theorem Enters.id (h : Enters s t content) : t.record.id = s.record.id ∨
    "id" ∉ s.seen ∧ "id" ∈ t.seen ∧ ∃ value, content = some (.entry "id" value) ∧
      t.record.id = identifier? (scalar value) := by
  cases h with
  | none same => exact .inl same.id
  | @key key value new seen id =>
    by_cases hkey : key = "id"
    · subst hkey
      exact .inr ⟨new, seen ▸ List.mem_cons_self, value, rfl, id⟩
    · exact .inl (id.trans (if_neg hkey))

theorem mem_seen_readAll (h : key ∈ s.seen) (he : s.readAll n raws = .ok t) : key ∈ t.seen := by
  induction raws generalizing s n with
  | nil => exact Except.ok.inj he ▸ h
  | cons raw raws ih =>
    obtain ⟨u, hread, he⟩ := readAll_cons_eq_ok_iff.mp he
    exact ih ((enters_read hread).mem_seen h) he

theorem EntersAt.cons (h : EntersAt key u (n + 1) raws line) (hread : s.read raw = .ok u) :
    EntersAt key s n (raw :: raws) line := by
  obtain ⟨pre, raw', post, t, v, rfl, rfl, hpre, hread', hnew, hseen⟩ := h
  have hbefore : s.readAll n (raw :: pre) = .ok t := readAll_cons_eq_ok_iff.mpr ⟨u, hread, hpre⟩
  refine ⟨raw :: pre, raw', post, t, v, rfl, ?_, hbefore, hread', hnew, hseen⟩
  rw [List.length_cons]
  omega

theorem EntersAt.not_lt {line' : Nat} (h : EntersAt key s n raws line)
    (h' : EntersAt key s n raws line') : ¬line < line' := by
  obtain ⟨pre, raw, post, t, u, rfl, rfl, hpre, hread, -, hseen⟩ := h
  obtain ⟨pre', raw', post', t', u', hraws, rfl, hpre', -, hnew', -⟩ := h'
  intro hlt
  have hprefix : pre ++ [raw] <+: pre' := by
    have hlength : (pre ++ [raw]).length ≤ pre'.length := by
      rw [List.length_append, List.length_singleton]
      omega
    refine List.prefix_of_prefix_length_le ⟨post, ?_⟩ ⟨raw' :: post', hraws.symm⟩ hlength
    rw [List.append_assoc, List.singleton_append]
  obtain ⟨mid, rfl⟩ := hprefix
  rw [List.append_assoc, List.singleton_append, Scan.readAll_append] at hpre'
  obtain ⟨v, hv, hrest⟩ := bind_ok.mp hpre'
  obtain rfl := Except.ok.inj (hpre.symm.trans hv)
  obtain ⟨w, hw, hrest⟩ := readAll_cons_eq_ok_iff.mp hrest
  obtain rfl := Except.ok.inj (hread.symm.trans hw)
  exact hnew' (mem_seen_readAll hseen hrest)

theorem EntersAt.unique {line' : Nat} (h : EntersAt key s n raws line)
    (h' : EntersAt key s n raws line') : line' = line := by
  have hle := h.not_lt h'
  have hge := h'.not_lt h
  omega

/-- The line on which the identifier of a rule stands, when the lines are read from number `n`
on. -/
structure IdLine (s : Scan) (n : Nat) (raws : List (List Char)) (line : Nat) (value : List Char) :
    Prop where
  enters : EntersAt "id" s n raws line
  first : n ≤ line
  entry : ∃ raw, raws[line - n]? = some raw ∧ content? raw = some (.entry "id" value)

theorem IdLine.cons (h : IdLine u (n + 1) raws line value) (hread : s.read raw = .ok u) :
    IdLine s n (raw :: raws) line value := by
  obtain ⟨enters, first, raw', hraw', hcontent⟩ := h
  refine ⟨enters.cons hread, by omega, raw', ?_, hcontent⟩
  have hplace : line - n = line - (n + 1) + 1 := by omega
  rw [hplace, List.getElem?_cons_succ, hraw']

/-- The identifier is the one before the lines, or the value on the line that enters its key. -/
theorem id_readAll (he : s.readAll n raws = .ok t) : t.record.id = s.record.id ∨
    ∃ line value, IdLine s n raws line value ∧ t.record.id = identifier? (scalar value) := by
  induction raws generalizing s n with
  | nil => exact .inl (Except.ok.inj he ▸ rfl)
  | cons raw raws ih =>
    obtain ⟨u, hread, he⟩ := readAll_cons_eq_ok_iff.mp he
    rcases ih he with hlater | ⟨line, value, hline, hid⟩
    · rcases (enters_read hread).id with hsame | ⟨hnew, hseen, value, hcontent, hid⟩
      · exact .inl (hlater.trans hsame)
      · refine .inr ⟨n, value, ⟨?_, Nat.le_refl n, raw, by simp, hcontent⟩, hlater.trans hid⟩
        exact ⟨[], raw, raws, s, u, rfl, rfl, rfl, hread, hnew, hseen⟩
    · exact .inr ⟨line, value, hline.cons hread, hid⟩

theorem exists_idLine {text : String} {r : Record} {id : String} (hparse : parse text = .ok r)
    (hid : r.id = some id) : ∃ line value, IdLine .start 1 (Text.lines text.toList) line value ∧
      scalar value = id := by
  obtain ⟨t, ht, he⟩ := bind_ok.mp hparse
  obtain rfl := Except.ok.inj he
  rw [(sameKeys_close t).id] at hid
  rcases id_readAll ht with hnone | ⟨line, value, hline, hvalue⟩
  · cases hid.symm.trans hnone
  · refine ⟨line, value, hline, ?_⟩
    rw [hid, identifier?] at hvalue
    split at hvalue
    · cases hvalue
    · exact (Option.some.inj hvalue).symm

-- ---------------------------------------------------------------------------
-- Lines that look like that of the identifier
-- ---------------------------------------------------------------------------

def startsWithId (raw : List Char) : Bool := "id:".toList.isPrefixOf (Text.trim raw)

theorem not_other_of_line (he : s.line l = .ok t) : l.content ≠ .other := by
  intro hother
  unfold Scan.line at he
  simp only at he
  split at he
  · simp [Scan.topLine, hother] at he
  · split at he
    · simp [Scan.topLine, hother] at he
    · split at he <;> simp [Scan.logsourceLine, Scan.detectionLine, hother] at he

theorem ofBody_id (rest : List Char) :
    (∃ value, Content.ofBody ('i' :: 'd' :: ':' :: rest) = .entry "id" value) ∨
      Content.ofBody ('i' :: 'd' :: ':' :: rest) = .other := by
  have hsplit : splitEntry? ('i' :: 'd' :: ':' :: rest) =
      if rest.head?.all (fun c => c == ' ' || c == '\t') then some (['i', 'd'], Text.trim rest)
      else none := rfl
  have hitem : ('i' :: 'd' :: ':' :: rest == ['-'] ||
      ['-', ' '].isPrefixOf ('i' :: 'd' :: ':' :: rest)) = false := rfl
  simp only [Content.ofBody, hitem, hsplit, Bool.false_eq_true, if_false]
  by_cases hblank : rest.head?.all (fun c => c == ' ' || c == '\t') = true
  · rw [if_pos hblank]
    exact .inl ⟨Text.trim rest, rfl⟩
  · rw [if_neg hblank]
    exact .inr rfl

theorem content?_of_startsWithId (h : startsWithId raw = true) (he : s.read raw = .ok t) :
    ∃ value, content? raw = some (.entry "id" value) := by
  obtain ⟨rest, hrest⟩ := List.isPrefixOf_iff_prefix.mp h
  have hbody : Text.trimLeft (Text.trimRight raw) = 'i' :: 'd' :: ':' :: rest := hrest.symm
  have hchars : RawLine.ofChars raw =
      if (Text.trimRight raw).head? == some '\t' then .tabbed
      else .line
        ⟨((Text.trimRight raw).takeWhile (· == ' ')).length, 'i' :: 'd' :: ':' :: rest⟩ := by
    rw [RawLine.ofChars, hbody]
    rfl
  by_cases htab : ((Text.trimRight raw).head? == some '\t') = true
  · rw [Scan.read, hchars, if_pos htab] at he
    cases he
  · rw [Scan.read, hchars, if_neg htab] at he
    rw [content?, hchars, if_neg htab]
    rcases ofBody_id rest with ⟨value, hentry⟩ | hother
    · exact ⟨value, congrArg some hentry⟩
    · exact absurd hother (not_other_of_line he)

def StartsWithId (text : String) (line : Nat) : Prop :=
  ∃ i raw, line = i + 1 ∧ (Text.lines text.toList)[i]? = some raw ∧ startsWithId raw = true

def InDetectionAt (text : String) (line : Nat) : Prop :=
  ∃ s, Scan.start.readAll 1 ((Text.lines text.toList).take (line - 1)) = .ok s ∧ s.DetectionOpen

/-- A line that starts with `id` and a colon enters the key, or it stands in a detection block. -/
theorem entersAt_or_inDetectionAt {text : String} {r : Record} (hparse : parse text = .ok r)
    (h : StartsWithId text line) :
    EntersAt "id" .start 1 (Text.lines text.toList) line ∨ InDetectionAt text line := by
  obtain ⟨i, raw, rfl, hraw, h⟩ := h
  obtain ⟨hi, rfl⟩ := List.getElem?_eq_some_iff.mp hraw
  have hlines : Text.lines text.toList = (Text.lines text.toList).take i ++
      (Text.lines text.toList)[i] :: (Text.lines text.toList).drop (i + 1) := by
    rw [List.getElem_cons_drop, List.take_append_drop]
  obtain ⟨t, ht, -⟩ := bind_ok.mp hparse
  rw [hlines, Scan.readAll_append] at ht
  obtain ⟨u, hu, ht⟩ := bind_ok.mp ht
  obtain ⟨v, hv, -⟩ := readAll_cons_eq_ok_iff.mp ht
  obtain ⟨value, hcontent⟩ := content?_of_startsWithId h hv
  have henters := enters_read hv
  rw [hcontent] at henters
  cases henters with
  | none _ inside => exact .inr ⟨u, hu, inside _ _ rfl⟩
  | key new seen =>
    refine .inl ⟨_, _, _, u, v, hlines, ?_, hu, hv, new, seen ▸ List.mem_cons_self⟩
    rw [List.length_take, Nat.min_eq_left (Nat.le_of_lt hi), Nat.add_comm]

end SigmaDesk.RuleText
