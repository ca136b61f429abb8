import SigmaDesk.Proofs.RuleText.Indentation

/-!
# A detection block alone and in a rule

A detection block that is kept by itself reads as it does in a rule. There the reader has seen the
key, and the block has a header; but that stands in front of every line of the block, and nothing
inside looks at the keys that have been seen.
-/

namespace SigmaDesk.RuleText

variable {s t : Scan} {b b' : Block} {raw : List Char}

def Below (i j : Nat) : Prop := j = i + 2

theorem sameOrder_below : SameOrder Below := by
  rintro i i' j j' rfl rfl
  omega

/-- Both readers are in a detection block, the first in one that stands alone. -/
def Enclosed (o o' : Outer) : Prop :=
  ∃ b b', o.block = some b ∧ o'.block = some b' ∧ Block.Alike Below b b' ∧ b.kind = .detection ∧
    b.header = none

theorem exists_layoutAt (hkind : b.kind = .detection) (hheader : b.header = none) (i : Nat) :
    ∃ layout, b.layoutAt i = some layout := by
  obtain ⟨kind, header, layout⟩ := b
  obtain rfl : kind = .detection := hkind
  obtain rfl : header = none := hheader
  cases layout with
  | none => exact ⟨_, rfl⟩
  | some layout =>
    cases layout with
    | flat => exact ⟨_, rfl⟩
    | nested child => exact ⟨_, rfl⟩

theorem below_ofChars (htab : raw.head? ≠ some '\t') :
    RawLine.Alike Below (.ofChars raw) (.ofChars ("  ".toList ++ raw)) := by
  obtain ⟨k, rest, hspace, rfl⟩ : ∃ k rest, rest.head? ≠ some ' ' ∧
      List.replicate k ' ' ++ rest = raw :=
    ⟨width raw, unindented raw, head?_unindented raw, spaces_append_unindented raw⟩
  have hdeeper : "  ".toList ++ (List.replicate k ' ' ++ rest) =
      List.replicate (k + 2) ' ' ++ rest := rfl
  have hfront : (List.replicate (k + 2) ' ' ++ rest).head? ≠ some '\t' := by
    simp [List.replicate_succ]
  have hbelow : Below k (k + 2) := rfl
  rw [hdeeper, ofChars_indented hspace htab, ofChars_indented hspace hfront]
  exact RawLine.alike_ofBody hbelow (Text.trim rest)

namespace Scan

theorem Alike.line_below {l m : Line} (h : Alike Below Enclosed s t) (hl : Line.Alike Below l m) :
    Agree (Alike Below Enclosed) (s.line l) (t.line m) := by
  obtain ⟨b, b', hs, ht, hb, hkind, hheader⟩ := h.outer
  obtain ⟨layout, ha⟩ := exists_layoutAt hkind hheader l.indent
  have hlayouts := hb.layoutAt hl.indent
  rw [ha] at hlayouts
  generalize ha' : b'.layoutAt m.indent = layout' at hlayouts
  cases hlayouts with
  | some hlayout =>
    rw [line_of_detection hs hkind ha, line_of_detection ht (hb.kind.trans hkind) ha']
    refine detectionLine sameOrder_below ?_ hlayout hl
    exact ⟨h.record, h.target, h.conditionSeen, h.pending,
      ⟨_, _, rfl, rfl, ⟨hb.kind, hb.shallow, hb.deep, .some hlayout⟩, hkind, hheader⟩⟩

theorem Alike.read_below (h : Alike Below Enclosed s t) (htab : raw.head? ≠ some '\t')
    (hmark : Text.trim raw ≠ "---".toList) :
    Agree (Alike Below Enclosed) (s.read raw) (t.read ("  ".toList ++ raw)) := by
  have hraw := below_ofChars htab
  unfold Scan.read
  generalize ha : RawLine.ofChars raw = a, RawLine.ofChars ("  ".toList ++ raw) = a' at hraw
  cases hraw with
  | skipped => exact .ok h
  | line hl => exact h.line_below hl
  | documentMark => exact absurd (trim_of_documentMark ha) hmark

def belowKey : Scan where
  seen := ["detection"]
  base := some 0
  block := some { kind := .detection, header := some 0 }

theorem read_detectionKey : start.read "detection:".toList = .ok belowKey := by
  decide +kernel

theorem alike_belowKey : Alike Below Enclosed startDetection belowKey where
  record := rfl
  target := rfl
  conditionSeen := rfl
  pending := .none
  outer := by
    refine ⟨_, _, rfl, rfl, ⟨rfl, ?_, ?_, .none⟩, rfl, rfl⟩
    · rintro i j rfl
      rfl
    · rintro i j rfl
      rfl

end Scan

def keyedText (block : String) : String :=
  String.ofList
    (Text.unlines ("detection:".toList :: (Text.lines block.toList).map ("  ".toList ++ ·)))

theorem lines_keyedText (block : String) : Text.lines (keyedText block).toList =
    "detection:".toList :: (Text.lines block.toList).map ("  ".toList ++ ·) := by
  have hkey : Text.unbroken "detection:" = true := by decide
  rw [keyedText, String.toList_ofList]
  refine Text.lines_unlines fun l hl c hc => ?_
  rcases List.mem_cons.mp hl with rfl | hl
  · exact Text.unbroken_iff.mp hkey c hc
  · obtain ⟨raw, hraw, rfl⟩ := List.mem_map.mp hl
    rcases List.mem_append.mp hc with hc | hc
    · obtain rfl : c = ' ' := by simpa using hc
      rfl
    · exact Text.isBreak_of_mem_lines hraw hc

/-- A text that has the lines of a detection block below its key reads as the block alone: the same
selections and the same condition, or the same reason one line further down. -/
theorem parse_keyed {block text : String}
    (hlines : Text.lines text.toList =
      "detection:".toList :: (Text.lines block.toList).map ("  ".toList ++ ·))
    (htab : ∀ l ∈ Text.lines block.toList, l.head? ≠ some '\t')
    (hmark : ∀ l ∈ Text.lines block.toList, Text.trim l ≠ "---".toList) :
    (parse text).map (fun r => (r.selections, r.condition)) =
      (parseDetection block).mapError fun e => { e with line := e.line + 1 } := by
  have hpairs : List.Forall₂ (fun raw raw' => raw' = "  ".toList ++ raw ∧
      raw.head? ≠ some '\t' ∧ Text.trim raw ≠ "---".toList) (Text.lines block.toList)
      ((Text.lines block.toList).map ("  ".toList ++ ·)) := by
    refine List.forall₂_map_right_iff.mpr (List.forall₂_same.mpr fun l hl => ?_)
    exact ⟨rfl, htab l hl, hmark l hl⟩
  have hrun : Agree (Scan.Alike Below Enclosed)
      (Scan.startDetection.readAll 1 (Text.lines block.toList))
      (Scan.belowKey.readAll 1 ((Text.lines block.toList).map ("  ".toList ++ ·))) := by
    refine Scan.readAll_agree (fun s t raw raw' h hraw => ?_) Scan.alike_belowKey hpairs 1
    obtain ⟨rfl, htab, hmark⟩ := hraw
    exact h.read_below htab hmark
  have hkey : Scan.start.readAll 1 (Text.lines text.toList) =
      (Scan.belowKey.readAll 1 ((Text.lines block.toList).map ("  ".toList ++ ·))).mapError
        fun e => { e with line := e.line + 1 } := by
    rw [hlines, Scan.readAll, Scan.read_detectionKey]
    exact Scan.readAll_add _ 1 1 _
  have hresult := hrun.map_eq fun s t h =>
    congrArg (fun r => (r.selections, r.condition)) h.close.record.symm
  rw [parseDetection_eq_map, hresult, ← map_mapError, ← hkey, parse_eq_map]
  cases Scan.start.readAll 1 (Text.lines text.toList) <;> rfl

/-- A block with lines at several depths, which are blank or comments in part. -/
def mixedBlock : String :=
  "# by depth\n  first:\n     Image|endswith:\n - a.exe\n   \n   - 'b: c'\n\n  condition: first\n"

def steppedBlock : String := "  first:\r\n     Image: a\r\n      User: b"

theorem parse_keyed_blocks :
    (parse (keyedText mixedBlock)).map (fun r => (r.selections, r.condition)) =
      .ok ([⟨"first", "Image", some "endswith", .many ["a.exe", "b: c"]⟩], ⟨["first"]⟩) ∧
    (parse (keyedText steppedBlock)).map (fun r => (r.selections, r.condition)) =
      .error ⟨4, .nestedMapping "Image"⟩ := by
  have hmixed := parse_keyed (lines_keyedText mixedBlock) (by decide +kernel) (by decide +kernel)
  have hstepped :=
    parse_keyed (lines_keyedText steppedBlock) (by decide +kernel) (by decide +kernel)
  have halone : parseDetection mixedBlock =
      .ok ([⟨"first", "Image", some "endswith", .many ["a.exe", "b: c"]⟩], ⟨["first"]⟩) := by
    decide +kernel
  have hrefused : parseDetection steppedBlock = .error ⟨3, .nestedMapping "Image"⟩ := by
    decide +kernel
  rw [hmixed, hstepped, halone, hrefused]
  exact ⟨rfl, rfl⟩

end SigmaDesk.RuleText
