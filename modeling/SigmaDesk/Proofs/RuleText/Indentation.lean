import Mathlib.Data.List.Forall2
import SigmaDesk.Proofs.Text
import SigmaDesk.RuleText.Scan

/-!
# Indentation

The reader compares the indentations of lines with each other and does nothing else with them. So
texts whose indentations come in the same order are read alike, line by line.
-/

namespace SigmaDesk.RuleText

variable {R : Nat → Nat → Prop} {P : Scan → Scan → Prop} {i i' j j' k : Nat} {l m : Line}
  {layout layout' : Layout} {raw raw' rest : List Char} {raws raws' : List (List Char)}

-- ---------------------------------------------------------------------------
-- Indentations in the same order
-- ---------------------------------------------------------------------------

/-- A pairing of indentations that keeps their order. -/
def SameOrder (R : Nat → Nat → Prop) : Prop :=
  ∀ i i' j j', R i i' → R j j' → (i < j ↔ i' < j')

theorem SameOrder.le_iff (h : SameOrder R) (hi : R i i') (hj : R j j') : i ≤ j ↔ i' ≤ j' := by
  rw [← Nat.not_lt, ← Nat.not_lt, h j j' i i' hj hi]

theorem SameOrder.eq_iff (h : SameOrder R) (hi : R i i') (hj : R j j') : i = j ↔ i' = j' := by
  rw [Nat.eq_iff_le_and_ge, Nat.eq_iff_le_and_ge, h.le_iff hi hj, h.le_iff hj hi]

structure Line.Alike (R : Nat → Nat → Prop) (l m : Line) : Prop where
  indent : R l.indent m.indent
  body : m.body = l.body

theorem Line.Alike.content (h : Line.Alike R l m) : m.content = l.content := by
  rw [Line.content, Line.content, h.body]

/-- Lines that mean the same but for their indentation. A tab in front of a line is no
indentation. -/
inductive RawLine.Alike (R : Nat → Nat → Prop) : RawLine → RawLine → Prop
  | skipped : Alike R .skipped .skipped
  | documentMark : Alike R .documentMark .documentMark
  | line {l m : Line} (h : Line.Alike R l m) : Alike R (.line l) (.line m)

inductive Layout.Alike (R : Nat → Nat → Prop) : Layout → Layout → Prop
  | flat : Alike R .flat .flat
  | nested {i j : Nat} (h : R i j) : Alike R (.nested i) (.nested j)

theorem Layout.Alike.takesCondition (hR : SameOrder R) (h : Layout.Alike R layout layout')
    (hi : R i i') : Scan.Layout.takesCondition layout' i' = Scan.Layout.takesCondition layout i := by
  cases h with
  | flat => rfl
  | nested hchild =>
    rw [Bool.eq_iff_iff]
    simpa [Scan.Layout.takesCondition] using (hR.eq_iff hi hchild).symm

theorem Layout.Alike.eq_flat_iff (h : Layout.Alike R layout layout') :
    layout' = .flat ↔ layout = .flat := by
  cases h <;> simp

/-- Blocks that take the same lines. The headers need not be paired, but lines must compare with
them alike. -/
structure Block.Alike (R : Nat → Nat → Prop) (b b' : Block) : Prop where
  kind : b'.kind = b.kind
  shallow : ∀ i j, R i j → b'.header.any (j ≤ ·) = b.header.any (i ≤ ·)
  deep : ∀ i j, R i j → b'.header.all (· < j) = b.header.all (· < i)
  layout : Option.Rel (Layout.Alike R) b.layout b'.layout

theorem Block.Alike.opened (hR : SameOrder R) (kind : BlockKind) (hi : R i i') :
    Block.Alike R { kind, header := some i } { kind, header := some i' } where
  kind := rfl
  shallow j j' hj := by
    rw [Bool.eq_iff_iff]
    simpa using (hR.le_iff hj hi).symm
  deep j j' hj := by
    rw [Bool.eq_iff_iff]
    simpa using (hR i i' j j' hi hj).symm
  layout := .none

theorem Block.Alike.layoutAt {b b' : Block} (h : Block.Alike R b b') (hi : R i i') :
    Option.Rel (Layout.Alike R) (b.layoutAt i) (b'.layoutAt i') := by
  obtain ⟨kind, header, layout⟩ := b
  obtain ⟨kind', header', layout'⟩ := b'
  obtain ⟨rfl, habove, hbelow, hlayout⟩ := h
  have hshallow := habove i i' hi
  have hdeep := hbelow i i' hi
  simp only at hshallow hdeep hlayout
  cases hlayout with
  | none =>
    simp only [Block.layoutAt, hshallow]
    split
    · exact .some .flat
    · exact .some (.nested hi)
  | some hlayout =>
    cases hlayout with
    | flat =>
      simp only [Block.layoutAt]
      split
      · exact .some .flat
      · exact .none
    | nested hchild =>
      simp only [Block.layoutAt, hdeep]
      split
      · exact .some (.nested hchild)
      · exact .none

inductive Pending.Alike (R : Nat → Nat → Prop) : Pending → Pending → Prop
  | bare (name : String) : Alike R (.bare name) (.bare name)
  | matched (selection : Selection) {i j : Nat} (h : R i j) :
    Alike R (.matched selection i) (.matched selection j)

theorem Pending.Alike.build {p q : Pending} (h : Pending.Alike R p q) : q.build = p.build := by
  cases h <;> rfl

theorem Pending.Alike.addItem {p q : Pending} (h : Pending.Alike R p q) (item : String) :
    Pending.Alike R (p.addItem item) (q.addItem item) := by
  cases h with
  | bare => exact .bare _
  | matched _ hi => exact .matched _ hi

-- ---------------------------------------------------------------------------
-- States of the reader
-- ---------------------------------------------------------------------------

structure Outer where
  seen : List String
  base : Option Nat
  block : Option Block

structure Outer.Alike (R : Nat → Nat → Prop) (o o' : Outer) : Prop where
  seen : o'.seen = o.seen
  base : Option.Rel R o.base o'.base
  block : Option.Rel (Block.Alike R) o.block o'.block

/-- What comes of two readings: states of which something holds, or the same error. -/
inductive Agree {ε : Type} (P : Scan → Scan → Prop) : Except ε Scan → Except ε Scan → Prop
  | ok {s t : Scan} (h : P s t) : Agree P (.ok s) (.ok t)
  | error (e : ε) : Agree P (.error e) (.error e)

theorem Agree.mapError {ε ε' : Type} {x y : Except ε Scan} (h : Agree P x y) (g : ε → ε') :
    Agree P (x.mapError g) (y.mapError g) := by
  cases h with
  | ok h => exact .ok h
  | error e => exact .error (g e)

theorem Agree.map_eq {ε α : Type} {x y : Except ε Scan} {g : Scan → α} (h : Agree P x y)
    (hg : ∀ s t, P s t → g s = g t) : x.map g = y.map g := by
  cases h with
  | ok h => exact congrArg Except.ok (hg _ _ h)
  | error e => rfl

namespace Scan

def inside (s : Scan) (b : Block) (layout : Layout) (indent : Nat) : Scan :=
  { s with base := s.base.or (some indent), block := some { b with layout := some layout } }

theorem line_of_none {s : Scan} (h : s.block = none) :
    s.line l = { s with base := s.base.or (some l.indent) }.topLine l := by
  simp only [line, h]

theorem line_of_refused {s : Scan} {b : Block} (h : s.block = some b)
    (ha : b.layoutAt l.indent = none) :
    s.line l = { s with base := s.base.or (some l.indent) }.leave.topLine l := by
  simp only [line, h, ha]

theorem line_of_logsource {s : Scan} {b : Block} (h : s.block = some b) (hk : b.kind = .logsource)
    (ha : b.layoutAt l.indent = some layout) :
    s.line l = (s.inside b layout l.indent).logsourceLine layout l := by
  simp only [line, h, ha, hk, inside]

theorem line_of_detection {s : Scan} {b : Block} (h : s.block = some b) (hk : b.kind = .detection)
    (ha : b.layoutAt l.indent = some layout) :
    s.line l = (s.inside b layout l.indent).detectionLine layout l := by
  simp only [line, h, ha, hk, inside]

def outer (s : Scan) : Outer := ⟨s.seen, s.base, s.block⟩

/-- States that differ in the indentations that they remember, and in what is outside the detection
block as far as `O` lets it. -/
structure Alike (R : Nat → Nat → Prop) (O : Outer → Outer → Prop) (s t : Scan) : Prop where
  record : t.record = s.record
  target : t.target = s.target
  conditionSeen : t.conditionSeen = s.conditionSeen
  pending : Option.Rel (Pending.Alike R) s.pending t.pending
  outer : O s.outer t.outer

namespace Alike

variable {O : Outer → Outer → Prop} {s t : Scan}

-- ---------------------------------------------------------------------------
-- Detection blocks
-- ---------------------------------------------------------------------------

theorem close (h : Alike R O s t) : Alike R O s.close t.close := by
  have hpending := h.pending
  unfold Scan.close
  generalize s.pending = p, t.pending = q at hpending
  cases hpending with
  | none => exact h
  | some hp => exact ⟨by simp [h.record, hp.build], h.target, h.conditionSeen, .none, h.outer⟩

theorem addItem (h : Alike R O s t) (value : List Char) :
    Agree (Alike R O) (s.addItem value) (t.addItem value) := by
  unfold Scan.addItem
  rw [h.target]
  split
  · exact .ok ⟨by simp [h.record], rfl, h.conditionSeen, h.pending, h.outer⟩
  · refine .ok ⟨h.record, rfl, h.conditionSeen, ?_, h.outer⟩
    have hpending := h.pending
    dsimp only
    generalize s.pending = p, t.pending = q at hpending
    cases hpending with
    | none => exact .none
    | some hp => exact .some (hp.addItem _)
  · exact .error _

theorem openSelection (h : Alike R O s t) (name : String) (value : List Char) :
    Agree (Alike R O) (s.openSelection name value) (t.openSelection name value) := by
  have hclose := h.close
  simp only [Scan.openSelection, hclose.record]
  split
  · exact .error _
  · split
    · exact .error _
    · exact .ok ⟨rfl, hclose.target, hclose.conditionSeen, .some (.bare name), hclose.outer⟩

theorem matcherLine (h : Alike R O s t) (hi : R i i') (name key : String) (value : List Char) :
    Agree (Alike R O) (s.matcherLine name i key value) (t.matcherLine name i' key value) := by
  simp only [Scan.matcherLine, bind, Except.bind]
  cases splitModifier key with
  | error reason => exact .error reason
  | ok field =>
    dsimp only
    split
    · exact .ok ⟨h.record, rfl, h.conditionSeen, .some (.matched _ hi), h.outer⟩
    · cases inlineList? value with
      | error reason => exact .error reason
      | ok items? =>
        cases items? with
        | none => exact .ok ⟨h.record, h.target, h.conditionSeen, .some (.matched _ hi), h.outer⟩
        | some items =>
          exact .ok ⟨h.record, h.target, h.conditionSeen, .some (.matched _ hi), h.outer⟩

theorem selectionEntry (hR : SameOrder R) (h : Alike R O s t)
    (hlayout : Layout.Alike R layout layout') (hi : R i i') (key : String) (value : List Char) :
    Agree (Alike R O) (s.selectionEntry layout i key value)
      (t.selectionEntry layout' i' key value) := by
  have hname := h.openSelection key value
  have hfield := fun name => h.matcherLine hi name key value
  have hpending := h.pending
  unfold Scan.selectionEntry
  generalize s.pending = p, t.pending = q at hpending
  cases hlayout with
  | flat =>
    cases hpending with
    | none => exact hname
    | some hp =>
      cases hp with
      | bare name => exact hfield name
      | matched => exact hname
  | nested hchild =>
    -- The line is compared with the first line of the block, and then with the field line.
    simp only [← hR.eq_iff hi hchild, ← hR _ _ _ _ hchild hi]
    split
    · exact hname
    · split
      · cases hpending with
        | none => exact .error _
        | some hp =>
          cases hp with
          | bare name => exact hfield name
          | matched selection hindent =>
            simp only [← hR _ _ _ _ hindent hi]
            exact .error _
      · exact .error _

theorem detectionLine (hR : SameOrder R) (h : Alike R O s t)
    (hlayout : Layout.Alike R layout layout') (hl : Line.Alike R l m) :
    Agree (Alike R O) (s.detectionLine layout l) (t.detectionLine layout' m) := by
  unfold Scan.detectionLine
  rw [hl.content]
  cases l.content with
  | item value =>
    have hitem := h.addItem value
    have hpending := h.pending
    dsimp only
    generalize s.pending = p, t.pending = q at hpending
    cases hpending with
    | none => exact hitem
    | some hp =>
      cases hp with
      | bare name => exact .error _
      | matched => exact hitem
  | other =>
    rw [hl.body]
    exact .error _
  | entry key value =>
    -- An entry closes the list that is open, whatever the entry is.
    have hnone : Alike R O { s with target := none } { t with target := none } :=
      ⟨h.record, rfl, h.conditionSeen, h.pending, h.outer⟩
    simp only [hlayout.takesCondition hR hl.indent]
    split
    · split
      · rename_i hseen
        rw [if_pos (h.conditionSeen.trans hseen)]
        exact .error _
      · rename_i hseen
        rw [if_neg (h.conditionSeen ▸ hseen)]
        cases conditionTerms value with
        | error reason => exact .error reason
        | ok terms =>
          have hclose := hnone.close
          exact .ok ⟨by rw [hclose.record], hclose.target, rfl, hclose.pending, hclose.outer⟩
    · exact hnone.selectionEntry hR hlayout hl.indent key value

-- ---------------------------------------------------------------------------
-- Lines outside the blocks
-- ---------------------------------------------------------------------------

theorem leave (h : Alike R (Outer.Alike R) s t) : Alike R (Outer.Alike R) s.leave t.leave := by
  have hclose := h.close
  exact ⟨hclose.record, rfl, hclose.conditionSeen, hclose.pending, hclose.outer.seen,
    hclose.outer.base, .none⟩

theorem openItems (h : Alike R O s t) (f : ListField) (key : String) (value : List Char) :
    Agree (Alike R O) (s.openItems f key value) (t.openItems f key value) := by
  simp only [Scan.openItems, bind, Except.bind]
  split
  · exact .ok ⟨h.record, rfl, h.conditionSeen, h.pending, h.outer⟩
  · cases inlineList? value with
    | error reason => exact .error reason
    | ok items? =>
      cases items? with
      | none => exact .error _
      | some items =>
        exact .ok ⟨by simp [h.record], h.target, h.conditionSeen, h.pending, h.outer⟩

theorem openBlock (hR : SameOrder R) (h : Alike R (Outer.Alike R) s t) (kind : BlockKind)
    (hi : R i i') (key : String) (value : List Char) :
    Agree (Alike R (Outer.Alike R)) (s.openBlock kind i key value)
      (t.openBlock kind i' key value) := by
  unfold Scan.openBlock
  split
  · exact .ok ⟨h.record, h.target, h.conditionSeen, h.pending, h.outer.seen, h.outer.base,
      .some (.opened hR kind hi)⟩
  · exact .error _

theorem topEntry (hR : SameOrder R) (h : Alike R (Outer.Alike R) s t) (hi : R i i') (key : String)
    (value : List Char) :
    Agree (Alike R (Outer.Alike R)) (s.topEntry i key value) (t.topEntry i' key value) := by
  have hseen : t.seen = s.seen := h.outer.seen
  unfold Scan.topEntry
  cases TopKey.ofName key with
  | id => exact .ok ⟨by simp [h.record], h.target, h.conditionSeen, h.pending, h.outer⟩
  | text f => exact .ok ⟨by simp [h.record], h.target, h.conditionSeen, h.pending, h.outer⟩
  | items f => exact h.openItems f key value
  | block kind => exact h.openBlock hR kind hi key value
  | product =>
    dsimp only
    split
    · rename_i hlogsource
      rw [if_pos (hseen ▸ hlogsource)]
      exact .ok ⟨by simp [h.record], h.target, h.conditionSeen, h.pending, h.outer⟩
    · rename_i hlogsource
      rw [if_neg (hseen ▸ hlogsource)]
      exact .error _
  | condition => exact .error _
  | extra =>
    dsimp only
    split
    · exact .error _
    · exact .ok ⟨by simp [h.record], h.target, h.conditionSeen, h.pending, h.outer⟩

theorem topLine (hR : SameOrder R) (h : Alike R (Outer.Alike R) s t) (hl : Line.Alike R l m) :
    Agree (Alike R (Outer.Alike R)) (s.topLine l) (t.topLine m) := by
  have hseen : t.seen = s.seen := h.outer.seen
  have hbase : t.base.any (· < m.indent) = s.base.any (· < l.indent) := by
    have hrel : Option.Rel R s.base t.base := h.outer.base
    generalize s.base = a, t.base = b at hrel
    cases hrel with
    | none => rfl
    | some hab => simp [hR _ _ _ _ hab hl.indent]
  unfold Scan.topLine
  rw [hl.content]
  cases l.content with
  | item value => exact h.addItem value
  | other =>
    rw [hl.body]
    exact .error _
  | entry key value =>
    simp only [hbase, hseen]
    split
    · exact .error _
    · split
      · exact .error _
      · refine topEntry hR ?_ hl.indent key value
        exact ⟨h.record, rfl, h.conditionSeen, h.pending, rfl, h.outer.base, h.outer.block⟩

theorem logsourceLine (hR : SameOrder R) (h : Alike R (Outer.Alike R) s t)
    (hlayout : Layout.Alike R layout layout') (hl : Line.Alike R l m) :
    Agree (Alike R (Outer.Alike R)) (s.logsourceLine layout l) (t.logsourceLine layout' m) := by
  have hseen : t.seen = s.seen := h.outer.seen
  unfold Scan.logsourceLine
  rw [hl.content]
  cases l.content with
  | item value =>
    rw [hl.body]
    exact .error _
  | other =>
    rw [hl.body]
    exact .error _
  | entry key value =>
    simp only [hseen, hlayout.eq_flat_iff]
    split
    · split
      · exact .error _
      · have hproduct : Alike R (Outer.Alike R)
            { s with
              seen := key :: s.seen
              record := s.record.setText .logType (scalar value) }
            { t with
              seen := key :: s.seen
              record := t.record.setText .logType (scalar value) } :=
          ⟨by rw [h.record], h.target, h.conditionSeen, h.pending, rfl, h.outer.base,
            h.outer.block⟩
        split
        · exact .ok hproduct.leave
        · exact .ok hproduct
    · split
      · exact h.leave.topLine hR hl
      · exact .error _

theorem based (h : Alike R (Outer.Alike R) s t) (hi : R i i') :
    Alike R (Outer.Alike R) { s with base := s.base.or (some i) }
      { t with base := t.base.or (some i') } := by
  refine ⟨h.record, h.target, h.conditionSeen, h.pending, h.outer.seen, ?_, h.outer.block⟩
  have hbase : Option.Rel R s.base t.base := h.outer.base
  show Option.Rel R (s.base.or (some i)) (t.base.or (some i'))
  generalize s.base = a, t.base = b at hbase
  cases hbase with
  | none => exact .some hi
  | some hab => exact .some hab

theorem line (hR : SameOrder R) (h : Alike R (Outer.Alike R) s t) (hl : Line.Alike R l m) :
    Agree (Alike R (Outer.Alike R)) (s.line l) (t.line m) := by
  have hbased := h.based hl.indent
  have hblock : Option.Rel (Block.Alike R) s.block t.block := h.outer.block
  generalize hs : s.block = block, ht : t.block = block' at hblock
  cases hblock with
  | none =>
    rw [line_of_none hs, line_of_none ht]
    exact hbased.topLine hR hl
  | @some b b' hb =>
    -- The line is taken by both blocks, or ends both.
    have hlayouts := hb.layoutAt hl.indent
    generalize ha : b.layoutAt l.indent = layout, ha' : b'.layoutAt m.indent = layout' at hlayouts
    cases hlayouts with
    | none =>
      rw [line_of_refused hs ha, line_of_refused ht ha']
      exact hbased.leave.topLine hR hl
    | @some layout layout' hlayout =>
      have hinside : Alike R (Outer.Alike R) (s.inside b layout l.indent)
          (t.inside b' layout' m.indent) :=
        ⟨h.record, h.target, h.conditionSeen, h.pending, h.outer.seen, hbased.outer.base,
          .some ⟨hb.kind, hb.shallow, hb.deep, .some hlayout⟩⟩
      cases hk : b.kind with
      | logsource =>
        rw [line_of_logsource hs hk ha, line_of_logsource ht (hb.kind.trans hk) ha']
        exact hinside.logsourceLine hR hlayout hl
      | detection =>
        rw [line_of_detection hs hk ha, line_of_detection ht (hb.kind.trans hk) ha']
        exact hinside.detectionLine hR hlayout hl

theorem read (hR : SameOrder R) (h : Alike R (Outer.Alike R) s t)
    (hraw : RawLine.Alike R (.ofChars raw) (.ofChars raw')) :
    Agree (Alike R (Outer.Alike R)) (s.read raw) (t.read raw') := by
  unfold Scan.read
  generalize RawLine.ofChars raw = a, RawLine.ofChars raw' = b at hraw
  cases hraw with
  | skipped => exact .ok h
  | line hl => exact h.line hR hl
  | documentMark =>
    have hbase : Option.Rel R s.base t.base := h.outer.base
    dsimp only
    generalize s.base = c, t.base = d at hbase
    cases hbase with
    | none => exact .ok h
    | some => exact .error _

end Alike

-- ---------------------------------------------------------------------------
-- All lines
-- ---------------------------------------------------------------------------

/-- What holds of two states line after line holds of what two runs end in. -/
theorem readAll_agree {L : List Char → List Char → Prop}
    (hstep : ∀ s t raw raw', P s t → L raw raw' → Agree P (s.read raw) (t.read raw'))
    {s t : Scan} (h : P s t) (hraws : List.Forall₂ L raws raws') (n : Nat) :
    Agree P (s.readAll n raws) (t.readAll n raws') := by
  induction hraws generalizing s t n with
  | nil => exact .ok h
  | cons hraw _ ih =>
    have hread := hstep _ _ _ _ h hraw
    unfold readAll
    generalize s.read _ = a, t.read _ = b at hread
    cases hread with
    | error reason => exact .error _
    | ok h => exact ih h (n + 1)

theorem readAll_add (s : Scan) (k n : Nat) (raws : List (List Char)) :
    s.readAll (n + k) raws =
      (s.readAll n raws).mapError fun e => { e with line := e.line + k } := by
  induction raws generalizing s n with
  | nil => rfl
  | cons raw raws ih =>
    unfold readAll
    cases s.read raw with
    | error reason => rfl
    | ok t =>
      have hnext : n + k + 1 = n + 1 + k := Nat.add_right_comm n k 1
      simpa only [hnext] using ih t (n + 1)

end Scan

theorem parse_eq_map (text : String) :
    parse text = (Scan.start.readAll 1 (Text.lines text.toList)).map (·.close.record) := by
  rw [parse]
  cases Scan.start.readAll 1 (Text.lines text.toList) <;> rfl

theorem parseDetection_eq_map (text : String) :
    parseDetection text = (Scan.startDetection.readAll 1 (Text.lines text.toList)).map fun s =>
      (s.close.record.selections, s.close.record.condition) := by
  rw [parseDetection]
  cases Scan.startDetection.readAll 1 (Text.lines text.toList) <;> rfl

theorem map_mapError {ε α β : Type} (x : Except ε α) (g : α → β) (g' : ε → ε) :
    (x.mapError g').map g = (x.map g).mapError g' := by
  cases x <;> rfl

-- ---------------------------------------------------------------------------
-- Indented lines
-- ---------------------------------------------------------------------------

def RawLine.ofBody (indent : Nat) (body : List Char) : RawLine :=
  if body.isEmpty || body.head? == some '#' then .skipped
  else if body == ['-', '-', '-'] then .documentMark
  else .line ⟨indent, body⟩

theorem RawLine.alike_ofBody (hi : R i i') (body : List Char) :
    RawLine.Alike R (.ofBody i body) (.ofBody i' body) := by
  unfold RawLine.ofBody
  split
  · exact .skipped
  · split
    · exact .documentMark
    · exact .line ⟨hi, rfl⟩

theorem trim_of_documentMark (h : RawLine.ofChars raw = .documentMark) :
    Text.trim raw = ['-', '-', '-'] := by
  simp only [RawLine.ofChars] at h
  split at h
  · cases h
  · split at h
    · rename_i hmark
      exact beq_iff_eq.mp hmark
    · split at h <;> cases h

def width (l : List Char) : Nat := (l.takeWhile (· == ' ')).length

def unindented (l : List Char) : List Char := l.dropWhile (· == ' ')

theorem spaces_append_unindented (l : List Char) :
    List.replicate (width l) ' ' ++ unindented l = l := by
  have hspaces : l.takeWhile (· == ' ') = List.replicate (width l) ' ' := by
    refine List.eq_replicate_iff.mpr ⟨rfl, fun c hc => ?_⟩
    simpa using List.mem_takeWhile_imp hc
  rw [← hspaces]
  exact List.takeWhile_append_dropWhile

theorem head?_unindented (l : List Char) : (unindented l).head? ≠ some ' ' := by
  intro h
  have hd := List.head?_dropWhile_not (· == ' ') l
  rw [unindented] at h
  simp [h] at hd

/-- A line without a tab in front of it is its indentation and what is left of it when the blanks
around it are gone. -/
theorem ofChars_indented (hspace : rest.head? ≠ some ' ')
    (htab : (List.replicate k ' ' ++ rest).head? ≠ some '\t') :
    RawLine.ofChars (List.replicate k ' ' ++ rest) = .ofBody k (Text.trim rest) := by
  have hblank : ∀ c ∈ List.replicate k ' ', Text.isBlank c = true := by
    intro c hc
    obtain rfl := List.eq_of_mem_replicate hc
    rfl
  by_cases hnil : Text.trimRight rest = []
  · -- A line of blanks is skipped, whatever blanks they are.
    have hbody : Text.trim rest = [] := by rw [Text.trim, hnil, Text.trimLeft_nil]
    simp only [RawLine.ofChars, RawLine.ofBody, Text.trimRight_append_of_blank hblank hnil, hbody,
      Text.trimLeft_nil, List.isEmpty_nil, Bool.true_or, if_true]
  · have hkept : Text.trimRight (List.replicate k ' ' ++ rest) =
        List.replicate k ' ' ++ Text.trimRight rest := Text.trimRight_append hnil
    have hbody : Text.trimLeft (List.replicate k ' ' ++ Text.trimRight rest) = Text.trim rest := by
      rw [Text.trimLeft, List.dropWhile_append_of_pos hblank]
      rfl
    have hhead : ((List.replicate k ' ' ++ Text.trimRight rest).head? == some '\t') = false := by
      rw [← hkept, Text.head?_trimRight (hkept ▸ fun h => hnil (List.append_eq_nil_iff.mp h).2)]
      exact beq_eq_false_iff_ne.mpr htab
    have hindent : (List.replicate k ' ' ++ Text.trimRight rest).takeWhile (· == ' ') =
        List.replicate k ' ' := by
      obtain ⟨c, cs, hc⟩ := List.exists_cons_of_ne_nil hnil
      have hne : c ≠ ' ' := by
        rintro rfl
        exact hspace (by rw [← Text.head?_trimRight hnil, hc, List.head?_cons])
      rw [List.takeWhile_append_of_pos fun d hd => by simp [List.eq_of_mem_replicate hd], hc]
      simp [hne]
    simp only [RawLine.ofChars, RawLine.ofBody, hkept, hbody, hhead, hindent,
      List.length_replicate, Bool.false_eq_true, if_false]

end SigmaDesk.RuleText
