import SigmaDesk.Proofs.Check
import SigmaDesk.Proofs.Gate
import SigmaDesk.Proofs.RuleText.Parsed
import SigmaDesk.Proofs.RuleText.RoundTrip

/-!
# Accepted records come back from their text

The text of a record that the gate lets pass gives it back exactly if none of its texts has a line
break. The gate and the writer look for line feeds and carriage returns only, while the reader ends
a line at every break.
-/

namespace SigmaDesk.RuleText

open Gate (Clean)
open Text (unbroken isSingleLine)

variable {c : Catalog} {r : Record}

theorem spec_of_term (h : Clean c r) :
    ∀ t ∈ r.condition.terms, isTerm t = true ∧ unbroken t = true := by
  intro t ht
  obtain ⟨s, hs, rfl⟩ := List.mem_map.mp (h.known t ht)
  obtain ⟨-, -, hterm, hunbroken⟩ := Check.selectionName_spec (h.selection s hs).name
  exact ⟨hterm, hunbroken⟩

theorem hasField_of_clean {s : Selection} (h : Gate.CleanSelection s) : s.HasField :=
  have ⟨hkey, hbar, _, hmodifier⟩ := Check.fieldKey_spec h.field
  ⟨hkey, hbar, hmodifier⟩

theorem isComplete_of_clean {s : Selection} (h : Gate.CleanSelection s) : s.isComplete = true := by
  obtain ⟨hcomplete, -, -⟩ := Check.matcher_spec h.value
  simp [Selection.isComplete, isEmpty_fieldKey (hasField_of_clean h), hcomplete]

theorem printableDetection_of_clean (h : Clean c r) : PrintableDetection r where
  condition := by
    cases he : r.condition.isEmpty with
    | false => rfl
    | true => simpa [Check.condition, he] using h.condition
  complete s hs := isComplete_of_clean (h.selection s hs)
  value v hv := by
    rcases List.mem_cons.mp hv with rfl | hv
    · exact Text.isSingleLine_of_unbroken
        (unbroken_conditionText fun t ht => (spec_of_term h t ht).2)
    · obtain ⟨s, hs, hv⟩ := List.mem_flatMap.mp hv
      exact (Check.matcher_spec (h.selection s hs).value).2.2 v hv

/-- Of what the gate lets pass, the strict writer refuses only what has a line feed or a carriage
return in its identifier, or in a value that the gate looks up in the catalog. -/
theorem printable_iff_of_clean (h : Clean c r) : Printable r ↔
    ∀ v ∈ [r.id.getD "", r.logType, r.level, r.status], isSingleLine v = true := by
  constructor
  · intro hp v hv
    simp only [List.mem_cons, List.not_mem_nil, or_false] at hv
    rcases hv with rfl | rfl | rfl | rfl
    · exact hp.value _ (by simp [Record.shownValues])
    · exact hp.value _ (by simp [Record.shownValues])
    · rw [← Text.isSingleLine_lower]
      exact hp.value _ (by simp [Record.shownValues])
    · exact hp.value _ (by simp [Record.shownValues])
  · intro hv
    have hdetection := printableDetection_of_clean h
    refine ⟨hdetection.condition, hdetection.complete, Record.isSingleLine_shownValues
      (hv _ (by simp)) (fun f => ?_) (fun f v hv => Check.isSingleLine_of_item f (h.item f v hv))
      (fun e he => (Check.extra_spec (h.extra e he)).2.2.2) hdetection.value⟩
    cases f with
    | name => exact Text.isSingleLine_of_unbroken (Check.unbroken_of_name (h.text .name))
    | description =>
      exact Text.isSingleLine_of_unbroken (Check.unbroken_of_description (h.text .description))
    | author => exact Text.isSingleLine_of_unbroken (Check.unbroken_of_author (h.text .author))
    | logType => exact hv r.logType (by simp)
    | level => exact hv r.level (by simp)
    | status => exact hv r.status (by simp)

theorem printable_of_clean (hc : Check.UnbrokenCatalog c) (hid : unbroken (r.id.getD "") = true)
    (h : Clean c r) : Printable r := by
  have htext (f : TextField) : isSingleLine (r.text f) = true :=
    Text.isSingleLine_of_unbroken (Check.unbroken_of_text hc f (h.text f))
  rw [printable_iff_of_clean h]
  simpa using ⟨Text.isSingleLine_of_unbroken hid, htext .logType, htext .level, htext .status⟩

theorem draft_of_clean (hlevel : Text.lower r.level = r.level) (hid : r.id ≠ some "")
    (h : Clean c r) (hu : r.Unbroken) : r.Draft where
  unbroken := hu
  id := hid
  level := hlevel
  extra k hk := by
    obtain ⟨e, he, rfl⟩ := List.mem_map.mp hk
    obtain ⟨hkey, hrule, -, -⟩ := Check.extra_spec (h.extra e he)
    exact ⟨hkey, hrule⟩
  selection s hs := by
    obtain ⟨hkey, hne, -, -⟩ := Check.selectionName_spec (h.selection s hs).name
    exact ⟨hkey, hne, .inr (hasField_of_clean (h.selection s hs))⟩
  distinct := h.distinct
  term t ht := (spec_of_term h t ht).1
  extraValue v hv := by
    obtain ⟨e, he, rfl⟩ := List.mem_map.mp hv
    exact (Check.extra_spec (h.extra e he)).2.2.1
  value s hs := .inr (Check.matcher_spec (h.selection s hs).value).2.1

/-- An accepted record has a text, and comes back from it exactly if it has no line breaks. -/
theorem parse_write_of_accepted_iff (hc : Check.UnbrokenCatalog c)
    (hlevel : Text.lower r.level = r.level) (hid : ∀ id ∈ r.id, id ≠ "" ∧ unbroken id = true)
    (h : (Gate.evaluate c r).submittable = true) :
    ∃ t, write r = .ok t ∧ (parse t = .ok r ↔ r.Unbroken) := by
  have hclean := Gate.submittable_iff.mp h
  have hidText : unbroken (r.id.getD "") = true := by
    cases hi : r.id with
    | none => rfl
    | some id => exact (hid id (by simp [hi])).2
  have hidNe : r.id ≠ some "" := fun hi => (hid "" (by simp [hi])).1 rfl
  refine ⟨_, write_ok_iff.mpr ⟨printable_of_clean hc hidText hclean, rfl⟩, ?_, ?_⟩
  · exact fun hp => (readable_of_parse hp).unbroken
  · exact fun hu => parse_ruleText (draft_of_clean hlevel hidNe hclean hu)

/-- A complete rule with the tags that are given. -/
def tagged (tags : List String) : Record where
  name := "Shell start"
  author := "soc"
  logType := "windows"
  level := "high"
  status := "test"
  tags := tags
  selections := [⟨"sel", "Image", "endswith", .one "\\cmd.exe"⟩]
  condition := ⟨["sel"]⟩

theorem parse_write_of_tagged :
    (Gate.evaluate .standard (tagged ["attack.t1059"])).submittable = true ∧
      ∃ t, write (tagged ["attack.t1059"]) = .ok t ∧ parse t = .ok (tagged ["attack.t1059"]) := by
  have haccepted : (Gate.evaluate .standard (tagged ["attack.t1059"])).submittable = true := by
    decide +kernel
  have hcatalog : Check.UnbrokenCatalog .standard := ⟨by decide, by decide, by decide⟩
  obtain ⟨t, hwrite, hparse⟩ := parse_write_of_accepted_iff hcatalog (by decide +kernel)
    (by simp [tagged]) haccepted
  exact ⟨haccepted, t, hwrite, hparse.mpr (by decide +kernel)⟩

/-- A tag with a line separator passes the gate, and its record does not come back. -/
theorem separator_passes_and_is_lost :
    Check.UnbrokenCatalog .standard ∧
      Text.lower (tagged ["attack.a\u2028b"]).level = (tagged ["attack.a\u2028b"]).level ∧
      (tagged ["attack.a\u2028b"]).id = none ∧
      (Gate.evaluate .standard (tagged ["attack.a\u2028b"])).submittable = true ∧
      ∃ t, write (tagged ["attack.a\u2028b"]) = .ok t ∧
        parse t ≠ .ok (tagged ["attack.a\u2028b"]) := by
  have haccepted : (Gate.evaluate .standard (tagged ["attack.a\u2028b"])).submittable = true := by
    decide +kernel
  have hcatalog : Check.UnbrokenCatalog .standard := ⟨by decide, by decide, by decide⟩
  have hprintable := printable_of_clean hcatalog rfl (Gate.submittable_iff.mp haccepted)
  refine ⟨hcatalog, by decide +kernel, rfl, haccepted, _, write_ok_iff.mpr ⟨hprintable, rfl⟩, ?_⟩
  intro hp
  have hbroken : ¬(tagged ["attack.a\u2028b"]).Unbroken := by decide +kernel
  exact hbroken (readable_of_parse hp).unbroken

end SigmaDesk.RuleText
