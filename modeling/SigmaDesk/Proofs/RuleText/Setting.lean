import SigmaDesk.Proofs.RuleText.Line

/-!
# Ways to set lines

A line says the same whether it stands as it was written or without the blanks around it. Then what
belongs to a detection block has to follow from the order of the lines.
-/

namespace SigmaDesk.RuleText

variable {l : String} {k j : Nat} {content : Content} {body raw : List Char}

def strip (l : String) : String := String.ofList (Text.trim l.toList)

theorem isBody_of_ofChars (h : RawLine.ofChars raw = .line ⟨k, body⟩) :
    body = Text.trim raw ∧ IsBody body := by
  simp only [RawLine.ofChars] at h
  split at h
  · cases h
  · rename_i hkept
    split at h
    · cases h
    · rename_i hmark
      split at h
      · cases h
      · simp only [Bool.or_eq_true, not_or, beq_iff_eq] at hkept hmark
        cases h
        refine ⟨rfl, ?_, Text.trimmed_trim raw, hkept.2, hmark⟩
        intro hnil
        exact hkept.1 (by rw [hnil]; rfl)

theorem Says.strip (h : Says l k content) : Says (strip l) 0 content := by
  obtain ⟨body, hraw, hcontent⟩ := h
  obtain ⟨rfl, hbody⟩ := isBody_of_ofChars hraw
  refine ⟨Text.trim l.toList, ?_, hcontent⟩
  rw [RuleText.strip, String.toList_ofList]
  exact ofChars_of_isBody hbody 0

theorem unbroken_strip (h : Text.unbroken l = true) : Text.unbroken (strip l) = true := by
  rw [Text.unbroken_iff] at h ⊢
  intro c hc
  rw [strip, String.toList_ofList] at hc
  exact h c (Text.mem_of_mem_trim hc)

inductive Setting
  | asWritten
  | flat

namespace Setting

def set : Setting → String → String
  | .asWritten, l => l
  | .flat, l => strip l

def indent : Setting → (k : Nat) → Nat
  | .asWritten, k => k
  | .flat, _ => 0

@[simp] theorem map_asWritten (ls : List String) : ls.map asWritten.set = ls := List.map_id' ls

@[simp] theorem indent_zero (how : Setting) : how.indent 0 = 0 := by
  cases how <;> rfl

theorem keeps (how : Setting) (h : Says l k content) : Says (how.set l) (how.indent k) content := by
  cases how with
  | asWritten => exact h
  | flat => exact h.strip

end Setting

variable {how : Setting} {header : Option Nat} {layout : Layout} {s : Scan}
  {key name : String} {value : List Char}

/-- How a detection block is laid out whose lines were written with indentation `k`: they stay
deeper than its header, or the block is flat. -/
inductive Frame : Setting → Option Nat → Nat → Layout → Prop
  | nested {header : Option Nat} {k : Nat} (h : header.all (· < k) = true) :
    Frame .asWritten header k (.nested k)
  | flat (k : Nat) : Frame .flat (some 0) k .flat

/-- In flat text the line after a name is its field, so no name may be left alone. -/
def Settled (layout : Layout) (s : Scan) : Prop :=
  layout = .flat → ∀ name, s.pending ≠ some (.bare name)

namespace Frame

theorem opens (h : Frame how header k layout) :
    Block.layoutAt { kind := .detection, header } (how.indent k) = some layout := by
  cases h with
  | flat => rfl
  | nested h =>
    have hdeeper : header.any (k ≤ ·) = false := by
      cases header with
      | none => rfl
      | some n =>
        have hn : n < k := by simpa using h
        simpa using hn
    rw [Setting.indent, Block.layoutAt, hdeeper]
    rfl

theorem layoutAt (h : Frame how header k layout) (hj : k ≤ j) :
    Block.layoutAt { kind := .detection, header, layout := some layout } (how.indent j) =
      some layout := by
  cases h with
  | flat => rfl
  | nested h =>
    have hdeeper : header.all (· < j) = true := by
      cases header with
      | none => rfl
      | some n =>
        have hn : n < k := by simpa using h
        simpa using Nat.lt_of_lt_of_le hn hj
    rw [Setting.indent]
    exact if_pos hdeeper

theorem takesCondition (h : Frame how header k layout) :
    Scan.Layout.takesCondition layout (how.indent k) = true := by
  cases h with
  | flat => rfl
  | nested => simp [Scan.Layout.takesCondition, Setting.indent]

theorem not_condition (h : Frame how header k layout)
    (hkey : layout = .flat → key ≠ "condition") :
    ¬(key = "condition" ∧ Scan.Layout.takesCondition layout (how.indent (k + 2)) = true) := by
  rintro ⟨hcondition, htakes⟩
  cases h with
  | flat => exact hkey rfl hcondition
  | nested => simp [Scan.Layout.takesCondition, Setting.indent] at htakes

theorem selectionEntry_name (h : Frame how header k layout) (hs : Settled layout s) :
    s.selectionEntry layout (how.indent k) key value = s.openSelection key value := by
  cases h with
  | nested => simp [Scan.selectionEntry, Setting.indent]
  | flat =>
    simp only [Scan.selectionEntry]
    split
    · rename_i name hname
      exact absurd hname (hs rfl name)
    · rfl

theorem selectionEntry_field (h : Frame how header k layout)
    (hs : s.pending = some (.bare name)) :
    s.selectionEntry layout (how.indent (k + 2)) key value =
      s.matcherLine name (how.indent (k + 2)) key value := by
  cases h with
  | nested => simp [Scan.selectionEntry, Setting.indent, hs]
  | flat => simp only [Scan.selectionEntry, hs]

end Frame

end SigmaDesk.RuleText
