import SigmaDesk.Proofs.RuleText.Reading

/-!
# Drafts come back from their text

The text of a draft, complete or not, is read as the draft. What stands between a readable record
and its text is a pass-through key with an empty value: its line is one that the reader refuses.
-/

namespace SigmaDesk.RuleText

open Scan (start)

variable {s : Scan} {r : Record} {t : String}

def afterHeader (r : Record) (seen : List String) : Scan :=
  { top r seen none with block := some { kind := .detection, header := some 0 } }

theorem read_detectionHeader (how : Setting) {seen : List String} (hnew : "detection" ∉ seen) :
    (top r seen none).read (how.set (entryText "detection" "")).toList =
      .ok (afterHeader r ("detection" :: seen)) := by
  rw [(Outside.between r seen none).read how (by decide) hnew]
  rfl

theorem description_of_undescribed (h : (!r.description.isEmpty) = false) : r.description = "" := by
  simpa using h

theorem reads_upTo (how : Setting) {described : Bool} {es : List (String × String)}
    (h : r.Readable) (hd : described = false → r.description = "")
    (hsub : ∀ e ∈ es, e ∈ r.extras.entries) (hnodup : (es.map Prod.fst).Nodup)
    (hvalue : ∀ e ∈ es, e.2 ≠ "") : ∃ seen,
    (∀ k ∈ seen, k ∈ ruleKeys ∧ k ≠ "detection" ∨ k ∈ es.map Prod.fst) ∧
      Reads start ((openingLines described r ++ listsText r ++ extrasText es).map how.set)
        (top { headOf r with extras := Table.empty.insertAll es } seen none) := by
  obtain ⟨seen, hseen, hhead⟩ := reads_head how h.id h.level hd
  have hkey : ∀ e ∈ es, isKey e.1 = true ∧ e.1 ∉ ruleKeys := fun e he =>
    h.extra e.1 (List.mem_map_of_mem (hsub e he))
  have hnew : ∀ e ∈ es, e.1 ∉ seen := fun e he hmem => (hkey e he).2 (hseen e.1 hmem).1
  have hextras := reads_extras how (r := headOf r) hkey hvalue hnodup hnew
  refine ⟨(es.map Prod.fst).reverse ++ seen, fun k hk => ?_, ?_⟩
  · rcases List.mem_append.mp hk with hk | hk
    · exact .inr (List.mem_reverse.mp hk)
    · exact .inl (hseen k hk)
  · rw [List.map_append]
    exact hhead.append hextras

theorem reads_header (how : Setting) {described : Bool} (h : r.Draft)
    (hd : described = false → r.description = "") : ∃ seen,
    Reads start ((openingLines described r ++ listsText r ++ extrasText r.extras.entries ++
        [entryText "detection" ""]).map how.set)
      (afterHeader { headOf r with extras := r.extras } seen) := by
  obtain ⟨seen, hseen, hupTo⟩ := reads_upTo how h.toReadable hd (fun _ he => he) r.extras.distinct
    fun e he => h.extraValue e.2 (List.mem_map_of_mem he)
  have hnew : "detection" ∉ seen := by
    intro hmem
    rcases hseen _ hmem with ⟨-, hne⟩ | hmem
    · exact hne rfl
    · exact (h.extra _ hmem).2 (by decide)
  rw [Table.insertAll_entries] at hupTo
  refine ⟨"detection" :: seen, ?_⟩
  rw [List.map_append]
  exact hupTo.append (.single (read_detectionHeader how hnew))

theorem reads_ruleText_upTo {how : Setting} {layout : Layout} {sels rest : List Selection}
    (hf : Frame how (some 0) 2 layout) (h : r.Draft) (hsels : r.selections = sels ++ rest)
    (hflat : layout = .flat → ∀ sel ∈ sels, sel.Flat) : ∃ s,
    Reads start ((ruleText { r with selections := sels }).map how.set) s ∧
      InDetection how (some 0) 2 layout s { r with selections := sels } := by
  obtain ⟨seen, hheader⟩ := reads_header how h description_of_undescribed
  have hpad : indentation.toList = List.replicate 2 ' ' := rfl
  obtain ⟨s, hdetection, hs⟩ := reads_detection
    (s := afterHeader { headOf r with extras := r.extras } seen) hf h hsels hflat rfl rfl rfl rfl hpad
  have htext : ruleText { r with selections := sels } =
      (openingLines (!r.description.isEmpty) r ++ listsText r ++ extrasText r.extras.entries ++
        [entryText "detection" ""]) ++ detectionText indentation { r with selections := sels } := by
    simp only [ruleText, headText_eq, List.append_assoc, List.singleton_append]
    rfl
  rw [htext, List.map_append]
  exact ⟨s, hheader.append hdetection, hs⟩

theorem reads_ruleText {how : Setting} {layout : Layout} (hf : Frame how (some 0) 2 layout)
    (h : r.Draft) (hflat : layout = .flat → ∀ sel ∈ r.selections, sel.Flat) :
    ∃ s, Reads start ((ruleText r).map how.set) s ∧ s.close.record = r := by
  obtain ⟨s, hreads, hs⟩ := reads_ruleText_upTo hf h (List.append_nil _).symm hflat
  exact ⟨s, hreads, hs.record⟩

theorem parse_ruleText (h : r.Draft) : parse (textOfLines (ruleText r)) = .ok r := by
  have hframe : Frame .asWritten (some 0) 2 (.nested 2) := .nested rfl
  obtain ⟨s, hreads, hs⟩ := reads_ruleText hframe h nofun
  rw [Setting.map_asWritten] at hreads
  rw [parse_of_reads (unbroken_ruleText h.toReadable) hreads, hs]

theorem exists_first {α : Type} {P : α → Prop} {as : List α} (h : ∃ a ∈ as, P a) :
    ∃ pre a post, as = pre ++ a :: post ∧ P a ∧ ∀ b ∈ pre, ¬P b := by
  classical
  obtain ⟨a, ha, hP⟩ := h
  have hfound : (as.find? (P ·)).isSome = true := by
    simpa using ⟨a, ha, hP⟩
  obtain ⟨b, hb⟩ := Option.isSome_iff_exists.mp hfound
  obtain ⟨hPb, pre, post, has, hpre⟩ := List.find?_eq_some_iff_append.mp hb
  exact ⟨pre, b, post, has, by simpa using hPb, fun x hx => by simpa using hpre x hx⟩

/-- The text of a record is refused at the line of its first empty pass-through value. -/
theorem parse_ruleText_of_empty (h : r.Readable) (he : ∃ e ∈ r.extras.entries, e.2 = "") :
    ∃ e, parse (textOfLines (ruleText r)) = .error e := by
  obtain ⟨pre, ⟨k, v⟩, post, hes, hv, hpre⟩ := exists_first he
  obtain rfl : v = "" := hv
  have hnodup : ((pre ++ (k, "") :: post).map Prod.fst).Nodup := hes ▸ r.extras.distinct
  rw [List.map_append, List.map_cons] at hnodup
  obtain ⟨hnodupPre, -, hdisjoint⟩ := List.nodup_append.mp hnodup
  obtain ⟨seen, hseen, hupTo⟩ := reads_upTo .asWritten h description_of_undescribed
    (fun e he => hes ▸ List.mem_append_left _ he) hnodupPre hpre
  rw [Setting.map_asWritten, ← headText_eq] at hupTo
  obtain ⟨hk, hrule⟩ := h.extra k (List.mem_map.mpr ⟨(k, ""), by simp [hes], rfl⟩)
  have hnew : k ∉ seen := by
    intro hmem
    rcases hseen k hmem with ⟨hmem, -⟩ | hmem
    · exact hrule hmem
    · exact hdisjoint k hmem k List.mem_cons_self rfl
  have hread := (Outside.between { headOf r with extras := Table.empty.insertAll pre } seen
    none).read_extra .asWritten hk hnew (ofName_of_not_mem hrule) ""
  rw [if_pos rfl, Setting.set] at hread
  have htext : ruleText r = (headText r ++ extrasText pre) ++ entryText k "" ::
      (extrasText post ++ entryText "detection" "" :: detectionText indentation r) := by
    simp [ruleText, hes, extrasText]
  refine ⟨⟨1 + (headText r ++ extrasText pre).length, .unsupportedKey k⟩, ?_⟩
  rw [parse, lines_textOfLines (unbroken_ruleText h), htext, hupTo.readAll_error hread 1]
  rfl

/-- A readable record whose single values are not empty comes back from its text exactly if none of
its pass-through values is empty. -/
theorem parse_ruleText_iff (h : r.Readable)
    (hv : ∀ sel ∈ r.selections, sel.IsBlank ∨ sel.matcher ≠ .one "") :
    parse (textOfLines (ruleText r)) = .ok r ↔ ∀ e ∈ r.extras.entries, e.2 ≠ "" := by
  constructor
  · intro hp e he hempty
    obtain ⟨err, herr⟩ := parse_ruleText_of_empty h ⟨e, he, hempty⟩
    rw [herr] at hp
    cases hp
  · intro hne
    refine parse_ruleText ⟨h, fun v hv => ?_, hv⟩
    obtain ⟨e, he, rfl⟩ := List.mem_map.mp hv
    exact hne e he

theorem printable_of_draft (h : r.Draft) (hc : r.condition.isEmpty = false)
    (hs : ∀ s ∈ r.selections, s.isComplete = true) : Printable r :=
  ⟨hc, hs, isSingleLine_of_unbroken h.unbroken⟩

theorem parse_preview (h : r.Draft) : parse (preview r) = .ok r := by
  rw [preview_eq (isSingleLine_of_unbroken h.unbroken), parse_ruleText h]

/-- Every draft comes back from its preview, and where the strict writer gives a text, it is that
preview: it does for the drafts with a condition and complete selections. -/
theorem parse_preview_of_draft (h : r.Draft) :
    parse (preview r) = .ok r ∧
      ((∃ t, write r = .ok t) ↔
        r.condition.isEmpty = false ∧ ∀ s ∈ r.selections, s.isComplete = true) ∧
      ∀ t, write r = .ok t → t = preview r ∧ parse t = .ok r := by
  have hpreview := preview_eq (isSingleLine_of_unbroken h.unbroken)
  refine ⟨parse_preview h, ⟨?_, ?_⟩, ?_⟩
  · rintro ⟨t, ht⟩
    obtain ⟨hp, -⟩ := write_ok_iff.mp ht
    exact ⟨hp.condition, hp.complete⟩
  · rintro ⟨hc, hs⟩
    exact ⟨_, write_ok_iff.mpr ⟨printable_of_draft h hc hs, rfl⟩⟩
  · intro t ht
    obtain ⟨-, rfl⟩ := write_ok_iff.mp ht
    exact ⟨hpreview.symm, parse_ruleText h⟩

def halfway : Record where
  name := "it's: #1"
  level := "high"
  tags := ["", "- x", "'quoted'"]
  selections :=
    [{ name := "run key", fieldKey := "Image", modifier := "endswith", matcher := .many ["", "[a"] },
      { name := "Selection_2" }]
  condition := ⟨["run", "later"]⟩
  extras := ⟨[("date", "2024: ")], by decide⟩

theorem parse_preview_of_halfway : halfway.Draft ∧ parse (preview halfway) = .ok halfway :=
  have hdraft : halfway.Draft := by decide +kernel
  ⟨hdraft, (parse_preview_of_draft hdraft).1⟩

end SigmaDesk.RuleText
