import SigmaDesk.Proofs.RuleText.Accepted

/-!
# Flat text

The lines of a rule without their indentation are read as the same rule, but that the condition and
a field of that name cannot be told apart; such a text is refused.
-/

namespace SigmaDesk.RuleText

open Scan (start)
open Text (unbroken)

variable {s : Scan} {r : Record} {ls : List String} {key pad : String}

/-- Lines as a text, without the blanks around them and with a line feed between each two. -/
def flatText (ls : List String) : String := "\n".intercalate (ls.map strip)

/-- An empty line at the end is not there when it is read, and would mean nothing. -/
theorem readAll_lines_intercalate {ls : List (List Char)}
    (h : ∀ l ∈ ls, ∀ c ∈ l, Text.isBreak c = false) (s : Scan) (n : Nat) :
    s.readAll n (Text.lines (['\n'].intercalate ls)) = s.readAll n ls := by
  induction ls generalizing s n with
  | nil => rfl
  | cons l ls ih =>
    cases ls with
    | nil =>
      rw [List.intercalate_singleton]
      by_cases hl : l = []
      · subst hl
        rfl
      · rw [Text.lines_of_unbroken hl (h l List.mem_cons_self)]
    | cons m ls =>
      rw [List.intercalate_cons_cons, List.append_assoc, List.singleton_append,
        Text.lines_append_feed (h l List.mem_cons_self), Scan.readAll, Scan.readAll]
      cases s.read l with
      | error reason => rfl
      | ok t => exact ih (fun k hk => h k (List.mem_cons_of_mem _ hk)) t (n + 1)

theorem parse_flatText (hu : ∀ l ∈ ls, unbroken l = true) :
    parse (flatText ls) =
      (start.readAll 1 ((ls.map strip).map String.toList)).map (·.close.record) := by
  have hlines : ∀ cs ∈ (ls.map strip).map String.toList, ∀ c ∈ cs, Text.isBreak c = false := by
    intro cs hcs
    obtain ⟨l', hl', rfl⟩ := List.mem_map.mp hcs
    obtain ⟨l, hl, rfl⟩ := List.mem_map.mp hl'
    exact Text.unbroken_iff.mp (unbroken_strip (hu l hl))
  have htext : (flatText ls).toList = ['\n'].intercalate ((ls.map strip).map String.toList) :=
    String.toList_intercalate
  rw [parse, htext, readAll_lines_intercalate hlines]
  rfl

theorem parse_flatText_ruleText (h : r.Draft) (hflat : ∀ sel ∈ r.selections, sel.Flat) :
    parse (flatText (ruleText r)) = .ok r := by
  obtain ⟨s, hreads, hs⟩ := reads_ruleText (.flat 2) h fun _ => hflat
  have hread : start.readAll 1 (((ruleText r).map strip).map String.toList) = .ok s :=
    hreads.readAll 1
  rw [parse_flatText (unbroken_ruleText h.toReadable), hread, ← hs]
  rfl

theorem Building.read_condition {header : Option Nat} {k : Nat} {p : Pending}
    (h : Building .flat header k .flat s r p) (hp : pad.toList = List.replicate (k + 2) ' ')
    (value : String) :
    s.read (strip (pad ++ entryText "condition" value)).toList =
      .error (.duplicateKey "condition") := by
  have hsays := says_entryText hp (show isKey "condition" = true by decide) value
  obtain ⟨ln, hindent, hcontent, hread⟩ := read_of_says hsays.strip
  rw [hread, line_of_block h.frame h.block (Nat.le_refl k) hindent]
  simp [Scan.detectionLine, hcontent, Scan.Layout.takesCondition, h.condition]

theorem exists_matcherText {sel : Selection} (h : sel.HasField) (pad : String) :
    ∃ value items, matcherText pad sel = (pad ++ entryText sel.key value) :: items := by
  rw [matcherText, isEmpty_fieldKey h]
  cases sel.matcher with
  | one text => exact ⟨text, [], rfl⟩
  | many items => exact ⟨"", _, rfl⟩

theorem ruleText_append {sels rest : List Selection} (hsels : r.selections = sels ++ rest) :
    ruleText r = ruleText { r with selections := sels } ++
      rest.flatMap (selectionText indentation) := by
  have hhead : headText { r with selections := sels } = headText r := rfl
  simp [ruleText, detectionText, hsels, hhead]

/-- The flat text of a draft is refused at the first field that reads as the condition. -/
theorem parse_flatText_of_condition (h : r.Draft) (hfield : ∀ sel ∈ r.selections, sel.HasField)
    (hcondition : ∃ sel ∈ r.selections, sel.key = "condition") :
    ∃ n, parse (flatText (ruleText r)) = .error ⟨n, .duplicateKey "condition"⟩ := by
  obtain ⟨sels, sel, rest, hsels, hkey, hother⟩ := exists_first hcondition
  have hsel : sel ∈ r.selections := by simp [hsels]
  have hflat : ∀ x ∈ sels, x.Flat := fun x hx => by
    have hx' : x ∈ r.selections := hsels ▸ List.mem_append_left _ hx
    rw [flat_iff (hfield x hx'), ← key_eq_condition_iff (hfield x hx')]
    exact hother x hx
  have hnew : sel.name ∉ ({ r with selections := sels } : Record).selectionNames := by
    have hdistinct := h.distinct
    rw [Record.selectionNames, hsels, List.map_append] at hdistinct
    exact fun hmem => (List.nodup_append.mp hdistinct).2.2 _ hmem _ List.mem_cons_self rfl
  have hpad : indentation.toList = List.replicate 2 ' ' := rfl
  -- The reader up to the name of this selection, and then at its field.
  obtain ⟨s, hreads, hs⟩ := reads_ruleText_upTo (.flat 2) h hsels fun _ => hflat
  obtain ⟨t, hname, ht⟩ := hs.read_name hpad (h.selection sel hsel).name
    (h.selection sel hsel).notCondition hnew
  obtain ⟨value, items, hmatcher⟩ :=
    exists_matcherText (hfield sel hsel) (indentation ++ indentation)
  rw [hkey] at hmatcher
  have hrefused := ht.read_condition (toList_indented hpad) value
  have hbefore : Reads start ((ruleText { r with selections := sels }).map strip ++
      [strip (indentation ++ entryText sel.name "")]) t := hreads.append (.single hname)
  have htext : (ruleText r).map strip = ((ruleText { r with selections := sels }).map strip ++
      [strip (indentation ++ entryText sel.name "")]) ++
      strip (indentation ++ indentation ++ entryText "condition" value) ::
        (items ++ rest.flatMap (selectionText indentation)).map strip := by
    rw [ruleText_append hsels, List.flatMap_cons, selectionText, hmatcher]
    simp
  rw [parse_flatText (unbroken_ruleText h.toReadable), htext, hbefore.readAll_error hrefused 1]
  exact ⟨_, rfl⟩

/-- The flat text of an accepted record gives the record back, unless a field without a modifier is
called `condition`. Then it is refused. -/
theorem parse_flatText_iff {c : Catalog} (hlevel : Text.lower r.level = r.level)
    (hid : r.id ≠ some "") (hu : r.Unbroken) (h : (Gate.evaluate c r).submittable = true) :
    ∃ ls, writeLines r = .ok ls ∧
      (parse (flatText ls) = .ok r ↔
        ∀ sel ∈ r.selections, ¬(sel.fieldKey = "condition" ∧ sel.modifier = none)) ∧
      ((∃ sel ∈ r.selections, sel.fieldKey = "condition" ∧ sel.modifier = none) →
        ∃ n, parse (flatText ls) = .error ⟨n, .duplicateKey "condition"⟩) := by
  have hclean := Gate.submittable_iff.mp h
  have hdraft := draft_of_clean hlevel hid hclean hu
  have hdetection := printableDetection_of_clean hclean
  have hprintable := printable_of_draft hdraft hdetection.condition hdetection.complete
  have hfield : ∀ sel ∈ r.selections, sel.HasField := fun sel hsel =>
    hasField_of_clean (hclean.selection sel hsel)
  have hrefused (hcondition : ∃ sel ∈ r.selections,
      sel.fieldKey = "condition" ∧ sel.modifier = none) :
      ∃ n, parse (flatText (ruleText r)) = .error ⟨n, .duplicateKey "condition"⟩ := by
    obtain ⟨sel, hsel, hplain⟩ := hcondition
    exact parse_flatText_of_condition hdraft hfield
      ⟨sel, hsel, (key_eq_condition_iff (hfield sel hsel)).mpr hplain⟩
  refine ⟨ruleText r, ruleLines_eq_pure hprintable.passes, ⟨fun hparse sel hsel hplain => ?_,
    fun hall => ?_⟩, hrefused⟩
  · obtain ⟨n, herror⟩ := hrefused ⟨sel, hsel, hplain⟩
    cases hparse.symm.trans herror
  · refine parse_flatText_ruleText hdraft fun sel hsel => ?_
    exact (flat_iff (hfield sel hsel)).mpr (hall sel hsel)

def conditional (modifier : Option String) : Record :=
  { tagged ["attack.t1059"] with
    selections := [⟨"sel", "condition", modifier, .many ["- a", "b: c"]⟩] }

theorem parse_flatText_conditional :
    (Gate.evaluate .standard (conditional "contains")).submittable = true ∧
    (Gate.evaluate .standard (conditional none)).submittable = true ∧
    (∃ ls, writeLines (conditional "contains") = .ok ls ∧
      parse (flatText ls) = .ok (conditional "contains")) ∧
    ∃ ls n, writeLines (conditional none) = .ok ls ∧
      parse (flatText ls) = .error ⟨n, .duplicateKey "condition"⟩ := by
  have hcontains : (Gate.evaluate .standard (conditional "contains")).submittable = true := by
    decide +kernel
  have hnone : (Gate.evaluate .standard (conditional none)).submittable = true := by
    decide +kernel
  obtain ⟨ls, hwrite, hparse, -⟩ := parse_flatText_iff (by decide +kernel) (by decide)
    (by decide +kernel) hcontains
  obtain ⟨ls', hwrite', -, hrefused⟩ := parse_flatText_iff (by decide +kernel) (by decide)
    (by decide +kernel) hnone
  obtain ⟨n, hn⟩ := hrefused (by decide)
  exact ⟨hcontains, hnone, ⟨ls, hwrite, hparse.mpr (by decide)⟩, ls', n, hwrite', hn⟩

end SigmaDesk.RuleText
