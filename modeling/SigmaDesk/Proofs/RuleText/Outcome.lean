import SigmaDesk.Proofs.RuleText.Parsed

/-!
# What comes of a text

A text is read to a record within the editor's model, or it is refused at a line of its own, after
lines that a rule can have.
-/

namespace SigmaDesk

open RuleText (ruleKeys operatorWords aggregateWords)

structure Selection.InModel (s : Selection) : Prop where
  name : s.name ≠ "" ∧ ':' ∉ s.name.toList ∧ s.name ≠ "condition"
  matcher : s = { name := s.name } ∨
    (s.fieldKey ≠ "" ∧ ':' ∉ s.fieldKey.toList ∧ '|' ∉ s.fieldKey.toList ∧
      Text.trim s.fieldKey.toList = s.fieldKey.toList ∧ ∀ m ∈ s.modifier, m ∈ modifiers)

/-- A record that the editor can hold: its texts are lines, its selections can be told apart by
their names, its condition lists words that could be such names. -/
structure Record.InModel (r : Record) : Prop where
  line : ∀ v ∈ r.strings, ∀ c ∈ v.toList, Text.isBreak c = false
  id : r.id ≠ some ""
  level : Text.lower r.level = r.level
  selection : ∀ s ∈ r.selections, s.InModel
  distinct : r.selectionNames.Nodup
  word : ∀ t ∈ r.condition.terms,
    t ≠ "" ∧ (∀ c ∈ t.toList, Text.isBlank c = false ∧ c ∉ "()|*?".toList) ∧
      Text.allDigits t.toList = false ∧ Text.lower t ∉ operatorWords ++ aggregateWords
  extra : ∀ k ∈ r.extras.keys, k ∉ ruleKeys

namespace RuleText

variable {s : Scan} {raws : List (List Char)}

theorem inModel_selection {sel : Selection} (h : sel.Readable) : sel.InModel where
  name := by
    refine ⟨ne_empty_of_isKey h.name, (isKey_iff.mp h.name).2.1, h.notCondition⟩
  matcher := by
    rcases h.matcher with hblank | hfield
    · exact .inl hblank
    · refine .inr ⟨ne_empty_of_isKey hfield.key, (isKey_iff.mp hfield.key).2.1, hfield.noBar, ?_,
        hfield.modifier⟩
      exact (trimmed_of_isKey hfield.key).trim_eq

theorem inModel_of_readable {r : Record} (h : r.Readable) : r.InModel where
  line v hv := Text.unbroken_iff.mp (h.unbroken v hv)
  id := h.id
  level := h.level
  selection s hs := inModel_selection (h.selection s hs)
  distinct := h.distinct
  word t ht := by
    obtain ⟨hword, hfault⟩ := isTerm_iff.mp (h.term t ht)
    obtain ⟨hlower, hdigits, hmarks⟩ := termFault?_eq_none.mp hfault
    refine ⟨?_, fun c hc => ⟨hword.solid c hc, hmarks c hc⟩, hdigits, hlower⟩
    rintro rfl
    exact hword.ne_nil rfl
  extra k hk := (h.extra k hk).2

def RefusedWith (s : Scan) (n : Nat) (raws : List (List Char)) (e : ParseError) : Prop :=
  ∃ pre raw post t, raws = pre ++ raw :: post ∧ e.line = n + pre.length ∧
    s.readAll n pre = .ok t ∧ t.read raw = .error e.reason

theorem refusedWith_of_readAll {n : Nat} {e : ParseError} (h : s.readAll n raws = .error e) :
    RefusedWith s n raws e := by
  induction raws generalizing s n with
  | nil => cases h
  | cons raw raws ih =>
    rw [Scan.readAll] at h
    split at h
    · rename_i t hread
      obtain ⟨pre, bad, post, u, hraws, hline, hpre, hbad⟩ := ih h
      refine ⟨raw :: pre, bad, post, u, ?_, ?_, ?_, hbad⟩
      · rw [hraws, List.cons_append]
      · rw [hline, List.length_cons, Nat.add_assoc, Nat.add_comm 1]
      · rw [Scan.readAll, hread]
        exact hpre
    · rename_i reason hread
      cases h
      exact ⟨[], raw, raws, s, rfl, rfl, rfl, hread⟩

/-- Every text is read to a record within the model or refused at one of its lines, and there is no
third outcome. -/
theorem parse_inModel_or_refused (text : String) :
    (∃ r, parse text = .ok r ∧ r.InModel) ∨
      ∃ e, parse text = .error e ∧ RefusedWith .start 1 (Text.lines text.toList) e := by
  cases h : parse text with
  | ok r => exact .inl ⟨r, rfl, inModel_of_readable (readable_of_parse h)⟩
  | error e =>
    refine .inr ⟨e, rfl, ?_⟩
    cases hs : Scan.start.readAll 1 (Text.lines text.toList) with
    | ok s =>
      rw [parse, hs] at h
      cases h
    | error e' =>
      rw [parse, hs] at h
      cases h
      exact refusedWith_of_readAll hs

end RuleText

end SigmaDesk
