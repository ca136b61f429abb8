import SigmaDesk.Proofs.RuleText.Reading

/-!
# Detection blocks that stand alone

A store keeps the detection block of a record as a text of its own, which is not indented.
Selections and condition come back from it, whatever the rest of the record holds.
-/

namespace SigmaDesk

open Text (unbroken)

/-- A complete selection that a detection block of one's own can carry. -/
structure Selection.Storable (s : Selection) : Prop where
  name : RuleText.isKey s.name = true
  notCondition : s.name ≠ "condition"
  field : s.HasField
  complete : s.isComplete = true
  unbroken : ∀ v ∈ s.strings, unbroken v = true

theorem Selection.storable_iff {s : Selection} : s.Storable ↔
    RuleText.isKey s.name = true ∧ s.name ≠ "condition" ∧ s.HasField ∧ s.isComplete = true ∧
      ∀ v ∈ s.strings, Text.unbroken v = true :=
  ⟨fun h => ⟨h.name, h.notCondition, h.field, h.complete, h.unbroken⟩,
    fun h => ⟨h.1, h.2.1, h.2.2.1, h.2.2.2.1, h.2.2.2.2⟩⟩

instance (s : Selection) : Decidable s.Storable := decidable_of_iff' _ Selection.storable_iff

namespace Record

/-- A record whose detection is complete and can be carried by text; nothing is asked of the rest. -/
structure Storable (r : Record) : Prop where
  condition : r.condition.isEmpty = false
  term : ∀ t ∈ r.condition.terms, isTerm t = true
  selection : ∀ s ∈ r.selections, s.Storable
  distinct : r.selectionNames.Nodup

theorem storable_iff {r : Record} : r.Storable ↔
    r.condition.isEmpty = false ∧ (∀ t ∈ r.condition.terms, isTerm t = true) ∧
      (∀ s ∈ r.selections, s.Storable) ∧ r.selectionNames.Nodup :=
  ⟨fun h => ⟨h.condition, h.term, h.selection, h.distinct⟩,
    fun h => ⟨h.1, h.2.1, h.2.2.1, h.2.2.2⟩⟩

instance (r : Record) : Decidable r.Storable := decidable_of_iff' _ storable_iff

def detectionOnly (r : Record) : Record :=
  { status := "", selections := r.selections, condition := r.condition }

end Record

namespace RuleText

variable {r : Record} {s : Selection} {scan : Scan} {ls : List String}

theorem matcher_ne_of_isComplete (h : s.isComplete = true) : s.matcher ≠ .one "" := by
  intro hm
  rw [Selection.isComplete, hm] at h
  simp [Matcher.isComplete] at h

theorem draft_detectionOnly (h : r.Storable) : r.detectionOnly.Draft where
  unbroken := by
    refine Record.unbroken_iff.mpr ⟨rfl, fun f => ?_, fun f v hv => ?_,
      fun s hs => (h.selection s hs).unbroken, fun t ht => unbroken_of_isTerm (h.term t ht),
      nofun, nofun⟩
    · cases f <;> rfl
    · cases f <;> cases hv
  id := nofun
  level := rfl
  extra := nofun
  selection s hs := ⟨(h.selection s hs).name, (h.selection s hs).notCondition,
    .inr (h.selection s hs).field⟩
  distinct := h.distinct
  term := h.term
  extraValue := nofun
  value s hs := .inr (matcher_ne_of_isComplete (h.selection s hs).complete)

theorem printableDetection_of_storable (h : r.Storable) : PrintableDetection r where
  condition := h.condition
  complete s hs := (h.selection s hs).complete
  value v hv := by
    rcases List.mem_cons.mp hv with rfl | hv
    · exact Text.isSingleLine_of_unbroken
        (unbroken_conditionText fun t ht => unbroken_of_isTerm (h.term t ht))
    · obtain ⟨s, hs, hv⟩ := List.mem_flatMap.mp hv
      exact Text.isSingleLine_of_unbroken (unbroken_texts (h.selection s hs).unbroken v hv)

theorem parseDetection_of_reads (hu : ∀ l ∈ ls, unbroken l = true)
    (h : Reads Scan.startDetection ls scan) :
    parseDetection (textOfLines ls) =
      .ok (scan.close.record.selections, scan.close.record.condition) := by
  rw [parseDetection, lines_textOfLines hu, h.readAll 1]
  rfl

/-- The selections and the condition come back from the detection block that is written of them. -/
theorem parseDetection_detectionText (h : r.Storable) :
    parseDetection (textOfLines (detectionText "" r)) = .ok (r.selections, r.condition) := by
  have hdraft := draft_detectionOnly h
  have hblock : Scan.startDetection.block = some { kind := .detection, header := none } := rfl
  have hpad : "".toList = List.replicate 0 ' ' := rfl
  have hframe : Frame .asWritten none 0 (.nested 0) := .nested rfl
  obtain ⟨scan, hreads, hscan⟩ := reads_detection hframe hdraft (List.append_nil _).symm nofun
    hblock rfl rfl rfl hpad
  rw [Setting.map_asWritten] at hreads
  have hlines : ∀ l ∈ detectionText "" r.detectionOnly, unbroken l = true :=
    unbroken_detectionText rfl hdraft.toReadable
  have hparse := parseDetection_of_reads hlines hreads
  rw [hscan.record] at hparse
  exact hparse

end RuleText

end SigmaDesk
