import SigmaDesk.Proofs.RuleText.Keys
import SigmaDesk.Proofs.Session.Submission

/-!
# Where a changed identifier is reported

The line that is reported for a changed identifier is looked up in the text afresh, without regard
to the blocks. So it can be a line of a detection block.
-/

namespace SigmaDesk.Session

open RuleText (EntersAt IdLine InDetectionAt StartsWithId)

variable {c : Catalog} {s : Session} {r : Record} {content assigned brought : String}
  {old : Option RuleText.ParseError} {value : List Char} {line : Nat}

/-- This line, counted from one, is taken for that of the identifier: it starts like it, and a
detection block is open. -/
def Lookalike (content : String) (line : Nat) : Prop :=
  StartsWithId content line ∧ InDetectionAt content line

theorem idLine_cases (content : String) :
    StartsWithId content (idLine content) ∧
        (∀ line, StartsWithId content line → idLine content ≤ line) ∨
      idLine content = 1 ∧ ∀ line, ¬StartsWithId content line := by
  cases h : (Text.lines content.toList).findIdx? RuleText.startsWithId with
  | some i =>
    have hline : idLine content = i + 1 := by
      unfold idLine
      exact h ▸ rfl
    obtain ⟨hi, hstarts, hfirst⟩ := List.findIdx?_eq_some_iff_getElem.mp h
    rw [hline]
    refine .inl ⟨⟨i, _, rfl, List.getElem?_eq_getElem hi, hstarts⟩, ?_⟩
    rintro _ ⟨j, raw, rfl, hraw, hstarts'⟩
    obtain ⟨hj, rfl⟩ := List.getElem?_eq_some_iff.mp hraw
    have hle : ¬j < i := fun hlt => hfirst j hlt hstarts'
    omega
  | none =>
    refine .inr ⟨?_, ?_⟩
    · unfold idLine
      exact h ▸ rfl
    · rintro _ ⟨j, raw, -, hraw, hstarts⟩
      have hno := List.findIdx?_eq_none_iff.mp h raw (List.mem_of_getElem? hraw)
      exact Bool.false_ne_true (hno.symm.trans hstarts)

theorem idLine_eq_iff (hparse : RuleText.parse content = .ok r)
    (hline : EntersAt "id" .start 1 (Text.lines content.toList) line) :
    idLine content = line ↔ (∀ i < line, ¬Lookalike content i) ∧
      (StartsWithId content line ∨ line = 1 ∧ ∀ i, ¬Lookalike content i) := by
  rcases idLine_cases content with ⟨hstarts, hfirst⟩ | ⟨hone, hnone⟩
  · constructor
    · rintro rfl
      exact ⟨fun i hlt hlook => Nat.not_le_of_lt hlt (hfirst i hlook.1), .inl hstarts⟩
    · rintro ⟨hbefore, hown⟩
      -- What is found is the line itself, or else a line of a detection block.
      rcases RuleText.entersAt_or_inDetectionAt hparse hstarts with henters | hinside
      · exact hline.unique henters
      · have hge : ¬idLine content < line := fun hlt => hbefore _ hlt ⟨hstarts, hinside⟩
        rcases hown with hown | ⟨-, hnone⟩
        · have hle := hfirst line hown
          omega
        · exact absurd ⟨hstarts, hinside⟩ (hnone _)
  · have hfree : ∀ i, ¬Lookalike content i := fun i hlook => hnone i hlook.1
    rw [hone]
    constructor
    · intro hsame
      exact ⟨fun i _ => hfree i, .inr ⟨hsame.symm, hfree⟩⟩
    · rintro ⟨-, hown | ⟨hsame, -⟩⟩
      · exact absurd hown (hnone line)
      · exact hsame.symm

theorem readText_changed (hassigned : s.record.id = some assigned)
    (hparse : RuleText.parse content = .ok r) (hbrought : r.id = some brought)
    (hne : brought ≠ assigned) :
    s.readText content = .error ⟨idLine content, .changedId assigned⟩ := by
  have hcarry : carryId s.record.id content r = .error ⟨idLine content, .changedId assigned⟩ := by
    simp only [carryId, hassigned, hbrought, if_neg hne]
  rw [readText, hparse]
  exact hcarry

/-- A text that brings another identifier is refused, and it stays open with the reason shown. The
identifier it brings stands on one line, which enters its key. That line is reported exactly if no
line of a detection block above it starts like it, and it has no blank before its colon. If it is
the first line of all, the blank does no harm as long as no line of a detection block starts so. -/
theorem changedId_refused (c : Catalog) (hidle : s.state ≠ .submitting)
    (hmode : s.mode = .text content old) (hassigned : s.record.id = some assigned)
    (hparse : RuleText.parse content = .ok r) (hbrought : r.id = some brought)
    (hne : brought ≠ assigned) :
    ∃ line value e, IdLine .start 1 (Text.lines content.toList) line value ∧
      RuleText.scalar value = brought ∧
      (∀ line', EntersAt "id" .start 1 (Text.lines content.toList) line' → line' = line) ∧
      s.step c .switchToStructured =
        (.error (.parse e), { s with mode := .text content (some e) }) ∧
      e.reason = .changedId assigned ∧
      (e.line = line ↔ (∀ i < line, ¬Lookalike content i) ∧
        (StartsWithId content line ∨ line = 1 ∧ ∀ i, ¬Lookalike content i)) := by
  obtain ⟨line, value, hline, hvalue⟩ := RuleText.exists_idLine hparse hbrought
  refine ⟨line, value, ⟨idLine content, .changedId assigned⟩, hline, hvalue,
    fun _ => hline.enters.unique, ?_, rfl, ?_⟩
  · rw [switchToStructured_text hidle hmode, readText_changed hassigned hparse hbrought hne]
  · exact idLine_eq_iff hparse hline.enters

def retyping (content : String) : Session :=
  { start (some { RuleText.tagged [] with id := some "7" }) with mode := .text content none }

def lookingForId (ahead : Bool) : String :=
  let detection := "detection:\n  sel:\n    id: 4688\n  condition: sel\n"
  if ahead then "title: Shell start\nid: 8\n" ++ detection else detection ++ "id: 8\n"

theorem changedId_refused_ahead :
    (retyping (lookingForId true)).state ≠ .submitting ∧
    (∃ r, RuleText.parse (lookingForId true) = .ok r ∧ r.id = some "8") ∧ "8" ≠ "7" ∧
    ∃ e, EntersAt "id" .start 1 (Text.lines (lookingForId true).toList) e.line ∧
      ((retyping (lookingForId true)).step .standard .switchToStructured).1 =
        .error (.parse e) ∧ e = ⟨2, .changedId "7"⟩ := by
  have hidle : (retyping (lookingForId true)).state ≠ .submitting := nofun
  have hne : "8" ≠ "7" := by decide
  let titled : Record := { name := "Shell start" }
  let read : Record :=
    { titled with
      id := some "8", selections := [⟨"sel", "id", none, .one "4688"⟩], condition := ⟨["sel"]⟩ }
  have hparse : RuleText.parse (lookingForId true) = .ok read := by decide +kernel
  -- Line 2 enters the key, with the title read before it.
  have hsecond : EntersAt "id" .start 1 (Text.lines (lookingForId true).toList) 2 :=
    ⟨(Text.lines (lookingForId true).toList).take 1, "id: 8".toList,
      (Text.lines (lookingForId true).toList).drop 2,
      { record := titled, seen := ["title"], base := some 0 },
      { record := { titled with id := some "8" }, seen := ["id", "title"], base := some 0 },
      by decide +kernel, by decide +kernel, by decide +kernel, by decide +kernel, by decide,
      by decide⟩
  have hstarts : StartsWithId (lookingForId true) 2 :=
    ⟨1, "id: 8".toList, rfl, by decide +kernel, by decide +kernel⟩
  have hbefore : ∀ i < 2, ¬Lookalike (lookingForId true) i := by
    rintro _ hlt ⟨⟨j, raw, rfl, hraw, hlike⟩, -⟩
    obtain rfl : j = 0 := by omega
    have htitle : (Text.lines (lookingForId true).toList)[0]? =
        some "title: Shell start".toList := by
      decide +kernel
    obtain rfl := Option.some.inj (htitle.symm.trans hraw)
    revert hlike
    decide
  obtain ⟨line, value, e, -, -, hunique, hstep, hreason, hiff⟩ :=
    changedId_refused .standard hidle rfl rfl hparse rfl hne
  obtain rfl := hunique 2 hsecond
  have hline : e.line = 2 := hiff.mpr ⟨hbefore, .inl hstarts⟩
  refine ⟨hidle, ⟨read, hparse, rfl⟩, hne, e, hline ▸ hsecond, by rw [hstep], ?_⟩
  rw [← hline, ← hreason]

/-- The identifier is read from line 5, behind the detection block. Reported is line 3, where the
field stands. -/
theorem changedId_misplaced :
    (retyping (lookingForId false)).record.id = some "7" ∧
    (∃ r, RuleText.parse (lookingForId false) = .ok r ∧ r.id = some "8") ∧
    EntersAt "id" .start 1 (Text.lines (lookingForId false).toList) 5 ∧
    ((retyping (lookingForId false)).step .standard .switchToStructured).1 =
      .error (.parse ⟨3, .changedId "7"⟩) := by
  let read : Record :=
    { selections := [⟨"sel", "id", none, .one "4688"⟩], condition := ⟨["sel"]⟩ }
  have hparse : RuleText.parse (lookingForId false) = .ok { read with id := some "8" } := by
    decide +kernel
  have hfifth : EntersAt "id" .start 1 (Text.lines (lookingForId false).toList) 5 :=
    ⟨(Text.lines (lookingForId false).toList).take 4, "id: 8".toList, [],
      { record := read, seen := ["detection"], base := some 0,
        block := some ⟨.detection, some 0, some (.nested 2)⟩, conditionSeen := true },
      { record := { read with id := some "8" }, seen := ["id", "detection"], base := some 0,
        conditionSeen := true },
      by decide +kernel, by decide +kernel, by decide +kernel, by decide +kernel, by decide,
      by decide⟩
  have hthird : idLine (lookingForId false) = 3 := by decide +kernel
  refine ⟨rfl, ⟨_, hparse, rfl⟩, hfifth, ?_⟩
  rw [switchToStructured_text (by decide) rfl, readText_changed rfl hparse rfl (by decide), hthird]

end SigmaDesk.Session
