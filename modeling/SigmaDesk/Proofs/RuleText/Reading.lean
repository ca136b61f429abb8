import SigmaDesk.Proofs.RuleText.Draft
import SigmaDesk.Proofs.RuleText.Setting
import SigmaDesk.Proofs.Table

/-!
# Reading what was written

The reader over the lines of a plain rendering, part by part. Each part takes the reader from a
state that stands for what has been read to one that stands for that and the part, whether the lines
are set as they were written or flat.
-/

namespace SigmaDesk.RuleText

open Scan (start)

variable {s t u : Scan} {l key value pad : String} {ls ms vs : List String} {r : Record}
  {seen : List String} {f : ListField}

-- ---------------------------------------------------------------------------
-- Runs of lines
-- ---------------------------------------------------------------------------

inductive Reads : Scan → List String → Scan → Prop
  | nil {s : Scan} : Reads s [] s
  | cons {s t u : Scan} {l : String} {ls : List String} (head : s.read l.toList = .ok t)
      (tail : Reads t ls u) : Reads s (l :: ls) u

theorem Reads.single (h : s.read l.toList = .ok t) : Reads s [l] t := .cons h .nil

theorem Reads.append (h : Reads s ls t) (k : Reads t ms u) : Reads s (ls ++ ms) u := by
  induction h with
  | nil => exact k
  | cons head _ ih => exact .cons head (ih k)

theorem Reads.of_append (h : Reads s (ls ++ ms) u) : ∃ t, Reads s ls t ∧ Reads t ms u := by
  induction ls generalizing s with
  | nil => exact ⟨s, .nil, h⟩
  | cons l ls ih =>
    cases h with
    | cons head tail =>
      obtain ⟨t, hls, hms⟩ := ih tail
      exact ⟨t, .cons head hls, hms⟩

theorem Reads.unique (h : Reads s ls t) (k : Reads s ls u) : t = u := by
  induction h with
  | nil =>
    cases k
    rfl
  | cons head _ ih =>
    cases k with
    | cons head' tail' =>
      obtain rfl := Except.ok.inj (head.symm.trans head')
      exact ih tail'

theorem Reads.rest (h : Reads s (ls ++ ms) u) (k : Reads s ls t) : Reads t ms u := by
  obtain ⟨v, hls, hms⟩ := h.of_append
  exact k.unique hls ▸ hms

theorem Reads.readAll (h : Reads s ls t) (n : Nat) :
    s.readAll n (ls.map String.toList) = .ok t := by
  induction h generalizing n with
  | nil => rfl
  | cons head _ ih =>
    rw [List.map_cons, Scan.readAll, head]
    exact ih (n + 1)

theorem reads_of_readAll {n : Nat} (h : s.readAll n (ls.map String.toList) = .ok t) :
    Reads s ls t := by
  induction ls generalizing s n with
  | nil =>
    obtain rfl := Except.ok.inj h
    exact .nil
  | cons l ls ih =>
    rw [List.map_cons, Scan.readAll] at h
    split at h
    · rename_i u hread
      exact .cons hread (ih h)
    · cases h

theorem Reads.readAll_error {reason : Reason} (h : Reads s ls t)
    (he : t.read l.toList = .error reason) (n : Nat) :
    s.readAll n ((ls ++ l :: ms).map String.toList) = .error ⟨n + ls.length, reason⟩ := by
  induction h generalizing n with
  | nil =>
    rw [List.nil_append, List.map_cons, Scan.readAll, he]
    rfl
  | cons head _ ih =>
    rw [List.cons_append, List.map_cons, Scan.readAll, head]
    simpa [Nat.add_assoc, Nat.add_comm 1] using ih he (n + 1)

theorem lines_textOfLines (h : ∀ l ∈ ls, Text.unbroken l = true) :
    Text.lines (textOfLines ls).toList = ls.map String.toList := by
  rw [textOfLines, String.toList_ofList]
  refine Text.lines_unlines fun cs hcs => ?_
  obtain ⟨l, hl, rfl⟩ := List.mem_map.mp hcs
  exact Text.unbroken_iff.mp (h l hl)

theorem parse_of_reads (hu : ∀ l ∈ ls, Text.unbroken l = true) (h : Reads start ls s) :
    parse (textOfLines ls) = .ok s.close.record := by
  rw [parse, lines_textOfLines hu, h.readAll 1]
  rfl

theorem reads_of_parse (hu : ∀ l ∈ ls, Text.unbroken l = true)
    (h : parse (textOfLines ls) = .ok r) : ∃ s, Reads start ls s ∧ s.close.record = r := by
  obtain ⟨s, hs, hr⟩ := bind_ok.mp h
  rw [lines_textOfLines hu] at hs
  exact ⟨s, reads_of_readAll hs, Except.ok.inj hr⟩

theorem read_of_says {k : Nat} {content : Content} (h : Says l k content) :
    ∃ ln : Line, ln.indent = k ∧ ln.content = content ∧ ∀ s : Scan, s.read l.toList = s.line ln := by
  obtain ⟨body, hraw, hcontent⟩ := h
  exact ⟨⟨k, body⟩, rfl, hcontent, fun s => by rw [Scan.read, hraw]⟩

-- ---------------------------------------------------------------------------
-- Outside the blocks
-- ---------------------------------------------------------------------------

def top (r : Record) (seen : List String) (target : Option Target) : Scan where
  record := r
  seen := seen
  base := some 0
  target := target

def afterProduct (r : Record) (seen : List String) : Scan :=
  { top r seen none with block := some ⟨.logsource, some 0, some (.nested 2)⟩ }

inductive Outside : Scan → Record → List String → Prop
  | atStart : Outside start {} []
  | between (r : Record) (seen : List String) (target : Option Target) :
      Outside (top r seen target) r seen
  | inFirstBlock (r : Record) (seen : List String) : Outside (afterProduct r seen) r seen

theorem Outside.line {ln : Line} (h : Outside s r seen) (hi : ln.indent = 0) :
    ∃ target, s.line ln = (top r seen target).topLine ln := by
  -- The first line sets the base; in the first block a line that is not indented ends the block.
  cases h with
  | atStart => exact ⟨none, by simp [Scan.line, start, top, hi]⟩
  | between _ _ target => exact ⟨target, rfl⟩
  | inFirstBlock =>
    exact ⟨none, by simp [Scan.line, afterProduct, top, Block.layoutAt, Scan.leave, Scan.close, hi]⟩

theorem Outside.read (h : Outside s r seen) (how : Setting) (hk : isKey key = true)
    (hnew : key ∉ seen) (value : String) : s.read (how.set (entryText key value)).toList =
      (top r (key :: seen) none).topEntry 0 key (valueText value) := by
  have hsays := says_entryText (show "".toList = List.replicate 0 ' ' from rfl) hk value
  rw [String.empty_append] at hsays
  obtain ⟨ln, hindent, hcontent, hread⟩ := read_of_says (how.keeps hsays)
  rw [Setting.indent_zero] at hindent
  obtain ⟨target, hline⟩ := h.line hindent
  have hseen : seen.contains key = false := by simpa using hnew
  rw [hread, hline]
  simp only [Scan.topLine, hcontent, hindent, top, Option.any_some, Nat.lt_irrefl,
    decide_false, hseen, Bool.false_eq_true, if_false]

theorem Outside.reads_id (h : Outside s r seen) (how : Setting) (hnew : "id" ∉ seen)
    (value : String) :
    Reads s ([entryText "id" value].map how.set)
      (top { r with id := identifier? value } ("id" :: seen) none) := by
  have hf : TopKey.ofName "id" = .id := rfl
  refine .single ?_
  rw [h.read how (by decide) hnew, Scan.topEntry, hf, scalar_valueText]
  rfl

theorem Outside.reads_text (h : Outside s r seen) (how : Setting) (key : String) (f : TextField)
    (hk : isKey key = true) (hnew : key ∉ seen) (hf : TopKey.ofName key = .text f)
    (value : String) :
    Reads s ([entryText key value].map how.set) (top (r.setText f value) (key :: seen) none) := by
  refine .single ?_
  rw [h.read how hk hnew, Scan.topEntry, hf, scalar_valueText]
  rfl

/-- As written, the `logsource` block stays open after its product; set flat, it ends with it. -/
theorem Outside.reads_logsource (h : Outside s r seen) (how : Setting)
    (hnew : "logsource" ∉ seen) (hproduct : "product" ∉ seen) (value : String) : ∃ t,
    Reads s ([entryText "logsource" "", indentation ++ entryText "product" value].map how.set) t ∧
      Outside t { r with logType := value } ("product" :: "logsource" :: seen) := by
  have hhead : s.read (how.set (entryText "logsource" "")).toList =
      .ok { top r ("logsource" :: seen) none with
        block := some { kind := .logsource, header := some 0 } } := by
    rw [h.read how (by decide) hnew]
    rfl
  have hsays := says_entryText (show indentation.toList = List.replicate 2 ' ' from rfl)
    (show isKey "product" = true by decide) value
  obtain ⟨ln, hindent, hcontent, hread⟩ := read_of_says (how.keeps hsays)
  have hseen : ("logsource" :: seen).contains "product" = false := by simpa using hproduct
  cases how with
  | asWritten =>
    refine ⟨_, .cons hhead (.single ?_), .inFirstBlock { r with logType := value } _⟩
    rw [hread]
    simp only [Scan.line, top, Block.layoutAt, hindent, Setting.indent, Scan.logsourceLine, hcontent,
      hseen, scalar_valueText]
    rfl
  | flat =>
    refine ⟨_, .cons hhead (.single ?_), .between { r with logType := value } _ none⟩
    rw [hread]
    simp only [Scan.line, top, Block.layoutAt, hindent, Setting.indent, Scan.logsourceLine, hcontent,
      hseen, scalar_valueText]
    rfl

theorem reads_items (how : Setting) {g : String → String}
    (hg : ∀ v, ∃ w, Says (indentation ++ g v) 2 (.item w) ∧ scalar w = v) (vs : List String) :
    Reads (top r seen (some (.field f))) ((vs.map (indentation ++ g ·)).map how.set)
      (top (r.setItems f (r.items f ++ vs)) seen (some (.field f))) := by
  -- The items before are in the record already, so it is the record that the induction changes.
  induction vs generalizing r with
  | nil =>
    have hr : r.setItems f (r.items f ++ []) = r := by
      rw [List.append_nil]
      cases f <;> rfl
    rw [hr]
    exact .nil
  | cons v vs ih =>
    obtain ⟨w, hsays, hw⟩ := hg v
    obtain ⟨ln, hindent, hcontent, hread⟩ := read_of_says (how.keeps hsays)
    have hhead : (top r seen (some (.field f))).read (how.set (indentation ++ g v)).toList =
        .ok (top (r.setItems f (r.items f ++ [v])) seen (some (.field f))) := by
      rw [hread]
      simp only [Scan.line, top, Scan.topLine, hcontent, Scan.addItem, hw]
      rfl
    have hset (a b : List String) : (r.setItems f a).setItems f b = r.setItems f b := by
      cases f <;> rfl
    have htail := ih (r := r.setItems f (r.items f ++ [v]))
    rw [Record.items_setItems, hset, List.append_assoc] at htail
    exact .cons hhead htail

theorem Outside.reads_list {g : String → String} (h : Outside s r seen) (how : Setting)
    (key : String) (f : ListField) (hk : isKey key = true) (hnew : key ∉ seen)
    (hf : TopKey.ofName key = .items f) (hempty : r.items f = [])
    (hg : ∀ v, ∃ w, Says (indentation ++ g v) 2 (.item w) ∧ scalar w = v) (vs : List String) :
    Reads s ((listText key g vs).map how.set)
      (top (r.setItems f vs) (key :: seen) (some (.field f))) := by
  have hhead : s.read (how.set (entryText key "")).toList =
      .ok (top r (key :: seen) (some (.field f))) := by
    rw [h.read how hk hnew, Scan.topEntry, hf]
    rfl
  have htail : Reads (top r (key :: seen) (some (.field f))) _ _ := reads_items how hg vs
  rw [hempty, List.nil_append] at htail
  exact .cons hhead htail

theorem Outside.read_extra (h : Outside s r seen) (how : Setting) (hk : isKey key = true)
    (hnew : key ∉ seen) (hf : TopKey.ofName key = .extra) (value : String) :
    s.read (how.set (entryText key value)).toList =
      if value = "" then .error (.unsupportedKey key)
      else .ok (top { r with extras := r.extras.insert key value } (key :: seen) none) := by
  rw [h.read how hk hnew, Scan.topEntry, hf]
  by_cases hv : value = ""
  · subst hv
    rfl
  · simp only [isEmpty_valueText hv, scalar_valueText, Bool.false_eq_true, if_false, hv]
    rfl

theorem ofName_of_not_mem (h : key ∉ ruleKeys) : TopKey.ofName key = .extra := by
  simp only [ruleKeys, List.mem_cons, List.not_mem_nil, or_false, not_or] at h
  simp [TopKey.ofName, h]

theorem reads_extras (how : Setting) {es : List (String × String)}
    (hkey : ∀ e ∈ es, isKey e.1 = true ∧ e.1 ∉ ruleKeys) (hvalue : ∀ e ∈ es, e.2 ≠ "")
    (hnew : (es.map Prod.fst).Nodup) (hseen : ∀ e ∈ es, e.1 ∉ seen) :
    Reads (top r seen none) ((extrasText es).map how.set)
      (top { r with extras := r.extras.insertAll es } ((es.map Prod.fst).reverse ++ seen) none) := by
  induction es generalizing r seen with
  | nil => exact .nil
  | cons e es ih =>
    obtain ⟨k, v⟩ := e
    obtain ⟨hk, hrule⟩ := hkey (k, v) (by simp)
    obtain ⟨hfresh, hrest⟩ := List.nodup_cons.mp hnew
    have hhead : (top r seen none).read (how.set (entryText k v)).toList =
        .ok (top { r with extras := r.extras.insert k v } (k :: seen) none) := by
      rw [(Outside.between r seen none).read_extra how hk (hseen (k, v) (by simp))
        (ofName_of_not_mem hrule), if_neg (hvalue (k, v) (by simp))]
    have hkeys : ((((k, v) :: es).map Prod.fst).reverse ++ seen) =
        (es.map Prod.fst).reverse ++ k :: seen := by simp
    rw [hkeys]
    refine .cons hhead (ih (fun e he => hkey e (by simp [he])) (fun e he => hvalue e (by simp [he]))
      hrest fun e he => ?_)
    have hne : e.1 ≠ k := fun heq => hfresh (List.mem_map.mpr ⟨e, he, heq⟩)
    simp [hne, hseen e (by simp [he])]

-- ---------------------------------------------------------------------------
-- The keys before the pass-through ones
-- ---------------------------------------------------------------------------

def openingKeys : List String := ["id", "logsource", "product", "title", "description"]

theorem not_mem_of_opening (h : ∀ k ∈ seen, k ∈ openingKeys) (later : List String)
    (hk : key ∉ later ++ openingKeys) : key ∉ later ++ seen := by
  rintro hmem
  rcases List.mem_append.mp hmem with hmem | hmem
  · exact hk (List.mem_append_left _ hmem)
  · exact hk (List.mem_append_right _ (h key hmem))

def headOf (r : Record) : Record := { r with selections := [], condition := {}, extras := .empty }

def openingOf (r : Record) : Record where
  id := r.id
  logType := r.logType
  name := r.name
  description := r.description

theorem reads_opening (how : Setting) {described : Bool} (hid : r.id ≠ some "")
    (hd : described = false → r.description = "") : ∃ seen,
    (∀ k ∈ seen, k ∈ openingKeys) ∧
      Reads start ((openingLines described r).map how.set) (top (openingOf r) seen none) := by
  have hopen := Outside.atStart.reads_id how (by decide) (r.id.getD "")
  rw [identifier?_getD hid] at hopen
  obtain ⟨t, hlog, ht⟩ := (Outside.between { id := r.id } ["id"] none).reads_logsource how
    (by decide) (by decide) r.logType
  have htitle := ht.reads_text how "title" .name (by decide) (by decide) rfl r.name
  have hfirst := (hopen.append hlog).append htitle
  cases described with
  | false =>
    refine ⟨["title", "product", "logsource", "id"], by decide, ?_⟩
    have hrecord : openingOf r = { id := r.id, logType := r.logType, name := r.name } := by
      simp [openingOf, hd rfl]
    rw [hrecord]
    exact hfirst
  | true =>
    have hdescription := (Outside.between { id := r.id, logType := r.logType, name := r.name }
      ["title", "product", "logsource", "id"] none).reads_text how "description"
        .description (by decide) (by decide) rfl r.description
    exact ⟨["description", "title", "product", "logsource", "id"], by decide,
      hfirst.append hdescription⟩

theorem reads_lists (how : Setting) {seen : List String} (hsub : ∀ k ∈ seen, k ∈ openingKeys)
    (hlevel : Text.lower r.level = r.level) : ∃ seen',
    (∀ k ∈ seen', k ∈ ruleKeys ∧ k ≠ "detection") ∧
      Reads (top (openingOf r) seen none) ((listsText r).map how.set)
        (top (headOf r) seen' none) := by
  have hpad : indentation.toList = List.replicate 2 ' ' := rfl
  have hnew := @not_mem_of_opening
  -- From key to key; each is new, for the ones before it are these and the opening ones.
  have htags := (Outside.between (openingOf r) seen none).reads_list how "tags" .tags (by decide)
    (hnew hsub [] (by decide)) rfl rfl (says_itemText hpad) r.tags
  have hfalse := htags.append ((Outside.between _ _ _).reads_list how "falsepositives"
    .falsePositives (by decide) (hnew hsub ["tags"] (by decide)) rfl rfl (says_itemText hpad)
    r.falsePositives)
  have hlevelLine := hfalse.append ((Outside.between _ _ _).reads_text how "level" .level (by decide)
    (hnew hsub ["falsepositives", "tags"] (by decide)) rfl (Text.lower r.level))
  have hstatus := hlevelLine.append ((Outside.between _ _ _).reads_text how "status" .status
    (by decide) (hnew hsub ["level", "falsepositives", "tags"] (by decide)) rfl r.status)
  have hreferences := hstatus.append ((Outside.between _ _ _).reads_list how "references" .references
    (by decide) (hnew hsub ["status", "level", "falsepositives", "tags"] (by decide)) rfl rfl
    (says_quotedItemText hpad) r.references)
  have hauthor := hreferences.append ((Outside.between _ _ _).reads_text how "author" .author
    (by decide) (hnew hsub ["references", "status", "level", "falsepositives", "tags"]
      (by decide)) rfl r.author)
  have hrecord : headOf r = ((((((openingOf r).setItems .tags r.tags).setItems .falsePositives
      r.falsePositives).setText .level (Text.lower r.level)).setText .status r.status).setItems
      .references r.references).setText .author r.author := by
    simp [headOf, openingOf, Record.setItems, Record.setText, hlevel]
  have hlater : ∀ k ∈ ["author", "references", "status", "level", "falsepositives", "tags"],
      k ∈ ruleKeys ∧ k ≠ "detection" := by decide
  have hfirst : ∀ k ∈ openingKeys, k ∈ ruleKeys ∧ k ≠ "detection" := by decide
  refine ⟨["author", "references", "status", "level", "falsepositives", "tags"] ++ seen,
    List.forall_mem_append.mpr ⟨hlater, fun k hk => hfirst k (hsub k hk)⟩, ?_⟩
  have htext : listsText r = listText "tags" itemText r.tags ++
      listText "falsepositives" itemText r.falsePositives ++
      [entryText "level" (Text.lower r.level)] ++ [entryText "status" r.status] ++
      listText "references" quotedItemText r.references ++ [entryText "author" r.author] := by
    simp only [listsText, List.append_assoc, List.cons_append, List.nil_append]
  rw [hrecord, htext]
  simp only [List.map_append]
  exact hauthor

/-- The keys before the pass-through ones give what they show, whether a description is shown or
not, as long as one that is there is. -/
theorem reads_head (how : Setting) {described : Bool} (hid : r.id ≠ some "")
    (hlevel : Text.lower r.level = r.level) (hd : described = false → r.description = "") : ∃ seen,
    (∀ k ∈ seen, k ∈ ruleKeys ∧ k ≠ "detection") ∧
      Reads start ((openingLines described r ++ listsText r).map how.set)
        (top (headOf r) seen none) := by
  obtain ⟨seen, hsub, hopening⟩ := reads_opening how hid hd
  obtain ⟨seen', hseen', hlists⟩ := reads_lists how hsub hlevel
  rw [List.map_append]
  exact ⟨seen', hseen', hopening.append hlists⟩

-- ---------------------------------------------------------------------------
-- The detection block
-- ---------------------------------------------------------------------------

variable {how : Setting} {header : Option Nat} {k : Nat} {layout : Layout} {p : Pending}
  {ln : Line}

@[simp] theorem close_block (s : Scan) : s.close.block = s.block := by
  cases h : s.pending <;> simp [Scan.close, h]

@[simp] theorem close_conditionSeen (s : Scan) : s.close.conditionSeen = s.conditionSeen := by
  cases h : s.pending <;> simp [Scan.close, h]

theorem close_record (s : Scan) : s.close.record =
    { s.record with selections := s.record.selections ++ (s.pending.map Pending.build).toList } := by
  cases h : s.pending <;> simp [Scan.close, h]

theorem openSelection_ok {name : String} (h : name ∉ s.close.record.selectionNames) :
    s.openSelection name [] = .ok { s.close with pending := some (.bare name) } := by
  simp [Scan.openSelection, h]

theorem openSelection_taken {name : String} (h : name ∈ s.close.record.selectionNames) :
    s.openSelection name [] = .error (.duplicateSelection name) := by
  simp [Scan.openSelection, h]

/-- The reader in a detection block whose lines were written with indentation `k`, after the
condition and between two selections: `r` is what has been read when the selection under way is
counted in. -/
structure InDetection (how : Setting) (header : Option Nat) (k : Nat) (layout : Layout) (s : Scan)
    (r : Record) : Prop where
  frame : Frame how header k layout
  block : s.block = some { kind := .detection, header, layout := some layout }
  condition : s.conditionSeen = true
  record : s.close.record = r
  settled : Settled layout s

structure Building (how : Setting) (header : Option Nat) (k : Nat) (layout : Layout) (s : Scan)
    (r : Record) (p : Pending) : Prop where
  frame : Frame how header k layout
  block : s.block = some { kind := .detection, header, layout := some layout }
  condition : s.conditionSeen = true
  record : s.record = r
  pending : s.pending = some p

theorem Building.inDetection (h : Building how header k layout s r p)
    (hp : layout = .flat → ∀ name, p ≠ .bare name) :
    InDetection how header k layout s { r with selections := r.selections ++ [p.build] } where
  frame := h.frame
  block := h.block
  condition := h.condition
  record := by rw [close_record, h.pending, ← h.record]; rfl
  settled hflat name hname := hp hflat name (Option.some.inj (h.pending.symm.trans hname))

theorem Building.inDetection_matched {sel : Selection} {i : Nat}
    (h : Building how header k layout s r (.matched sel i)) :
    InDetection how header k layout s { r with selections := r.selections ++ [sel] } :=
  h.inDetection fun _ _ => nofun

theorem line_of_block {j : Nat} (hf : Frame how header k layout)
    (hb : s.block = some { kind := .detection, header, layout := some layout }) (hj : k ≤ j)
    (hi : ln.indent = how.indent j) :
    s.line ln = { s with base := s.base.or (some ln.indent) }.detectionLine layout ln := by
  have hat := hf.layoutAt hj
  obtain ⟨record, seen, base, block, target, pending, conditionSeen⟩ := s
  obtain rfl : block = some { kind := .detection, header, layout := some layout } := hb
  simp only [Scan.line, hi, hat]

theorem read_conditionLine (hf : Frame how header k layout)
    (hb : s.block = some { kind := .detection, header }) (hs : s.pending = none)
    (hc : s.conditionSeen = false) (hp : pad.toList = List.replicate k ' ') (value : String) :
    s.read (how.set (pad ++ entryText "condition" value)).toList =
      (conditionTerms (valueText value)).map fun terms => { s with
        record := { s.record with condition := ⟨terms⟩ }
        base := s.base.or (some (how.indent k))
        block := some { kind := .detection, header, layout := some layout }
        target := none
        conditionSeen := true } := by
  obtain ⟨ln, hindent, hcontent, hread⟩ := read_of_says (how.keeps
    (says_entryText hp (show isKey "condition" = true by decide) value))
  have hopens := hf.opens
  have htakes := hf.takesCondition
  obtain ⟨record, seen, base, block, target, pending, conditionSeen⟩ := s
  obtain rfl : block = some { kind := .detection, header } := hb
  obtain rfl : pending = none := hs
  obtain rfl : conditionSeen = false := hc
  rw [hread]
  cases hterms : conditionTerms (valueText value) <;>
    simp [Scan.line, hindent, hopens, Scan.detectionLine, hcontent, hterms, htakes, Scan.close, bind,
      Except.bind, pure, Except.pure, Except.map]

theorem read_condition {terms : List String} {value : String} (hf : Frame how header k layout)
    (hb : s.block = some { kind := .detection, header }) (hs : s.pending = none)
    (hc : s.conditionSeen = false) (hp : pad.toList = List.replicate k ' ')
    (ht : conditionTerms (valueText value) = .ok terms) :
    ∃ t, s.read (how.set (pad ++ entryText "condition" value)).toList = .ok t ∧
      InDetection how header k layout t { s.record with condition := ⟨terms⟩ } := by
  have hline := read_conditionLine hf hb hs hc hp value
  rw [ht] at hline
  have hpending (name : String) : s.pending ≠ some (.bare name) := by simp [hs]
  exact ⟨_, hline, hf, rfl, rfl, by simp [close_record, hs], fun _ => hpending⟩

/-- A key among the lines of the block itself is the name of a selection, unless it is the condition
a second time. -/
theorem InDetection.line_entry {value : List Char} (h : InDetection how header k layout s r)
    (hindent : ln.indent = how.indent k) (hcontent : ln.content = .entry key value) :
    s.line ln = if key = "condition" then .error (.duplicateKey key)
      else { s with base := s.base.or (some (how.indent k)), target := none }.openSelection key
        value := by
  have htakes := h.frame.takesCondition
  have hsettled : Settled layout
      { s with base := s.base.or (some (how.indent k)), target := none } := h.settled
  rw [line_of_block h.frame h.block (Nat.le_refl k) hindent]
  simp only [Scan.detectionLine, hcontent, hindent, htakes, and_true, h.condition, if_true]
  split
  · rfl
  · exact h.frame.selectionEntry_name hsettled

theorem InDetection.read_name {name : String} (h : InDetection how header k layout s r)
    (hp : pad.toList = List.replicate k ' ') (hk : isKey name = true) (hne : name ≠ "condition")
    (hnew : name ∉ r.selectionNames) :
    ∃ t, s.read (how.set (pad ++ entryText name "")).toList = .ok t ∧
      Building how header k layout t r (.bare name) := by
  obtain ⟨ln, hindent, hcontent, hread⟩ := read_of_says (how.keeps (says_entryText hp hk ""))
  let u : Scan := { s with base := s.base.or (some (how.indent k)), target := none }
  have hrecord : u.close.record = r := by
    rw [close_record, ← h.record, close_record]
  refine ⟨{ u.close with pending := some (.bare name) }, ?_, h.frame, (close_block _).trans h.block,
    (close_conditionSeen _).trans h.condition, hrecord, rfl⟩
  rw [hread, h.line_entry hindent hcontent, if_neg hne]
  exact openSelection_ok (hrecord ▸ hnew)

theorem Building.read_field {name : String} (h : Building how header k layout s r (.bare name))
    (hp : pad.toList = List.replicate (k + 2) ' ') (hk : isKey key = true)
    (hflat : layout = .flat → key ≠ "condition") (value : String) :
    s.read (how.set (pad ++ entryText key value)).toList =
      { s with base := s.base.or (some (how.indent (k + 2))), target := none }.matcherLine name
        (how.indent (k + 2)) key (valueText value) := by
  obtain ⟨ln, hindent, hcontent, hread⟩ := read_of_says (how.keeps (says_entryText hp hk value))
  rw [hread, line_of_block h.frame h.block (Nat.le_add_right k 2) hindent]
  simp only [Scan.detectionLine, hcontent, hindent]
  rw [if_neg (h.frame.not_condition hflat)]
  exact h.frame.selectionEntry_field h.pending

theorem Building.read_one {name field text : String} {modifier : Option String}
    (h : Building how header k layout s r (.bare name))
    (hp : pad.toList = List.replicate (k + 2) ' ') (hk : isKey key = true)
    (hflat : layout = .flat → key ≠ "condition")
    (hsplit : Scan.splitModifier key = .ok (field, modifier)) (hne : text ≠ "") :
    ∃ t i, s.read (how.set (pad ++ entryText key text)).toList = .ok t ∧
      Building how header k layout t r (.matched ⟨name, field, modifier, .one text⟩ i) := by
  refine ⟨{ s with
    base := s.base.or (some (how.indent (k + 2)))
    target := none
    pending := some (.matched ⟨name, field, modifier, .one text⟩ (how.indent (k + 2))) }, _, ?_,
    h.frame, h.block, h.condition, h.record, rfl⟩
  rw [h.read_field hp hk hflat]
  simp [Scan.matcherLine, hsplit, isEmpty_valueText hne, inlineList?_valueText hne, bind,
    Except.bind, pure, Except.pure]

theorem Building.read_many {name field : String} {modifier : Option String}
    (h : Building how header k layout s r (.bare name))
    (hp : pad.toList = List.replicate (k + 2) ' ') (hk : isKey key = true)
    (hflat : layout = .flat → key ≠ "condition")
    (hsplit : Scan.splitModifier key = .ok (field, modifier)) :
    ∃ t i, s.read (how.set (pad ++ entryText key "")).toList = .ok t ∧
      t.target = some .matcher ∧
      Building how header k layout t r (.matched ⟨name, field, modifier, .many []⟩ i) := by
  refine ⟨{ s with
    base := s.base.or (some (how.indent (k + 2)))
    target := some .matcher
    pending := some (.matched ⟨name, field, modifier, .many []⟩ (how.indent (k + 2))) }, _, ?_, rfl,
    h.frame, h.block, h.condition, h.record, rfl⟩
  rw [h.read_field hp hk hflat]
  simp [Scan.matcherLine, hsplit, bind, Except.bind, pure, Except.pure]

theorem toList_indented {n : Nat} (hp : pad.toList = List.replicate n ' ') :
    (pad ++ indentation).toList = List.replicate (n + 2) ' ' := by
  have hi : indentation.toList = List.replicate 2 ' ' := rfl
  rw [String.toList_append, hp, hi, List.replicate_append_replicate]

theorem Building.reads_items {name field : String} {modifier : Option String} {i : Nat}
    (h : Building how header k layout s r (.matched ⟨name, field, modifier, .many ms⟩ i))
    (ht : s.target = some .matcher) (hp : pad.toList = List.replicate (k + 4) ' ')
    (vs : List String) :
    ∃ t, Reads s ((vs.map (pad ++ itemText ·)).map how.set) t ∧
      Building how header k layout t r (.matched ⟨name, field, modifier, .many (ms ++ vs)⟩ i) := by
  induction vs generalizing s ms with
  | nil =>
    rw [List.append_nil]
    exact ⟨s, .nil, h⟩
  | cons v vs ih =>
    obtain ⟨w, hsays, hw⟩ := says_itemText hp v
    obtain ⟨ln, hindent, hcontent, hread⟩ := read_of_says (how.keeps hsays)
    -- The state after one item differs from `s` in its base too, so the induction is over states.
    let u : Scan := { s with
      base := s.base.or (some (how.indent (k + 4)))
      pending := some (.matched ⟨name, field, modifier, .many (ms ++ [v])⟩ i) }
    have hu : Building how header k layout u r
        (.matched ⟨name, field, modifier, .many (ms ++ [v])⟩ i) :=
      ⟨h.frame, h.block, h.condition, h.record, rfl⟩
    have hhead : s.read (how.set (pad ++ itemText v)).toList = .ok u := by
      rw [hread, line_of_block h.frame h.block (Nat.le_add_right k 4) hindent]
      simp [Scan.detectionLine, hcontent, hindent, h.pending, Scan.addItem, ht, hw,
        Pending.addItem, Selection.values, Matcher.values, u]
    obtain ⟨t, hreads, hbuilding⟩ := ih hu ht
    rw [List.append_assoc] at hbuilding
    exact ⟨t, .cons hhead hreads, hbuilding⟩

/-- A selection with everything that is under its name. -/
theorem InDetection.reads_selection {sel : Selection} (h : InDetection how header k layout s r)
    (hp : pad.toList = List.replicate k ' ') (hr : sel.Readable)
    (hv : sel.IsBlank ∨ sel.matcher ≠ .one "") (hflat : layout = .flat → sel.Flat)
    (hnew : sel.name ∉ r.selectionNames) :
    ∃ t, Reads s ((selectionText pad sel).map how.set) t ∧
      InDetection how header k layout t { r with selections := r.selections ++ [sel] } := by
  have hp2 := toList_indented hp
  have hp4 := toList_indented hp2
  obtain ⟨t, hname, ht⟩ := h.read_name hp hr.name hr.notCondition hnew
  by_cases hb : sel.IsBlank
  · have hempty : matcherText (pad ++ indentation) sel = [] := by
      rw [hb]
      rfl
    have hbuild : sel = (Pending.bare sel.name).build := hb
    -- Its name is all there is of it, and flat text has no such selection.
    refine ⟨t, ?_, hbuild ▸ ht.inDetection fun hl => absurd hb (hflat hl).filled⟩
    rw [selectionText, hempty]
    exact .single hname
  · have hf : sel.HasField := hr.matcher.resolve_left hb
    have hne := isEmpty_fieldKey hf
    have hkey : layout = .flat → sel.key ≠ "condition" := fun hl => (hflat hl).notCondition
    obtain ⟨name, field, modifier, matcher⟩ := sel
    have hsplit := splitModifier_key hf
    rw [selectionText, matcherText, hne]
    cases matcher with
    | one text =>
      have htext : text ≠ "" := by
        rintro rfl
        exact hv.resolve_left hb rfl
      obtain ⟨u, i, hline, hu⟩ := ht.read_one hp2 (isKey_key hf) hkey hsplit htext
      exact ⟨u, .cons hname (.single hline), hu.inDetection_matched⟩
    | many items =>
      obtain ⟨u, i, hline, htarget, hu⟩ := ht.read_many hp2 (isKey_key hf) hkey hsplit
      obtain ⟨w, hitems, hw⟩ := hu.reads_items htarget hp4 items
      exact ⟨w, .cons hname (.cons hline hitems), hw.inDetection_matched⟩

theorem InDetection.reads_selections {sels : List Selection}
    (h : InDetection how header k layout s r) (hp : pad.toList = List.replicate k ' ')
    (hr : ∀ sel ∈ sels, sel.Readable) (hv : ∀ sel ∈ sels, sel.IsBlank ∨ sel.matcher ≠ .one "")
    (hflat : layout = .flat → ∀ sel ∈ sels, sel.Flat)
    (hd : (r.selectionNames ++ sels.map (·.name)).Nodup) :
    ∃ t, Reads s ((sels.flatMap (selectionText pad)).map how.set) t ∧
      InDetection how header k layout t { r with selections := r.selections ++ sels } := by
  induction sels generalizing s r with
  | nil =>
    rw [List.append_nil]
    exact ⟨s, .nil, h⟩
  | cons sel sels ih =>
    have hnew : sel.name ∉ r.selectionNames := fun hmem =>
      (List.nodup_append.mp hd).2.2 _ hmem _ List.mem_cons_self rfl
    obtain ⟨t, hhead, ht⟩ := h.reads_selection hp (hr sel List.mem_cons_self)
      (hv sel List.mem_cons_self) (fun hl => hflat hl sel List.mem_cons_self) hnew
    obtain ⟨u, htail, hu⟩ := ih ht (fun x hx => hr x (List.mem_cons_of_mem _ hx))
      (fun x hx => hv x (List.mem_cons_of_mem _ hx))
      (fun hl x hx => hflat hl x (List.mem_cons_of_mem _ hx))
      (by simpa [Record.selectionNames] using hd)
    rw [List.append_assoc] at hu
    rw [List.flatMap_cons, List.map_append]
    exact ⟨u, hhead.append htail, hu⟩

theorem reads_detection {sels rest : List Selection} (hf : Frame how header k layout)
    (hdraft : r.Draft) (hsels : r.selections = sels ++ rest)
    (hflat : layout = .flat → ∀ sel ∈ sels, sel.Flat)
    (hb : s.block = some { kind := .detection, header }) (hs : s.pending = none)
    (hc : s.conditionSeen = false) (hsel : s.record.selections = [])
    (hp : pad.toList = List.replicate k ' ') :
    ∃ t, Reads s ((detectionText pad { r with selections := sels }).map how.set) t ∧
      InDetection how header k layout t
        { s.record with condition := r.condition, selections := sels } := by
  have hmem : ∀ sel ∈ sels, sel ∈ r.selections := fun sel h => hsels ▸ List.mem_append_left _ h
  have hdistinct : (sels.map (·.name)).Nodup := by
    have hd := hdraft.distinct
    rw [Record.selectionNames, hsels, List.map_append] at hd
    exact (List.nodup_append.mp hd).1
  obtain ⟨t, hcondition, ht⟩ := read_condition hf hb hs hc hp (conditionTerms_valueText hdraft.term)
  obtain ⟨u, hselections, hu⟩ := ht.reads_selections hp
    (fun sel h => hdraft.selection sel (hmem sel h)) (fun sel h => hdraft.value sel (hmem sel h))
    hflat (by simpa [Record.selectionNames, hsel] using hdistinct)
  rw [hsel] at hu
  exact ⟨u, .cons hcondition hselections, hu⟩

end SigmaDesk.RuleText
