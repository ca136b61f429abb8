import Mathlib
import SigmaDesk.Command.Run
import SigmaDesk.Proofs.RuleText.Parsed
import SigmaDesk.Proofs.RuleText.RoundTrip

/-!
# Formatting a file

What `format --write` leaves in a file, and what it leaves there a second time. A path leads to the
same file before and after a write, as a write changes no path.
-/

namespace SigmaDesk

open RuleText (parse)

namespace Files

variable {fs gs : Files} {path key content other : String}

theorem paths_congr (h : fs.keys = gs.keys) : fs.paths = gs.paths := by rw [paths, paths, h]

theorem isDirectory_congr (h : fs.keys = gs.keys) : fs.isDirectory = gs.isDirectory := by
  funext place
  cases place <;> simp [isDirectory, paths_congr h]

theorem enter_congr (h : fs.keys = gs.keys) : fs.enter = gs.enter := by
  funext path here name
  cases here <;> simp [enter, isFile, isDirectory_congr h, paths_congr h]

theorem follow_congr (h : fs.keys = gs.keys) : fs.follow = gs.follow := by
  funext path
  simp [follow, enter_congr h]

theorem locate_congr (h : fs.keys = gs.keys) : fs.locate = gs.locate := by
  funext path
  simp [locate, Table.contains, follow_congr h, isDirectory_congr h, h]

theorem locate_eq (fs : Files) (path : String) : fs.locate path =
    if path.toList.contains '\x00' then .error .nulInPath
    else if fs.contains path then .ok path
    else
      match fs.follow path with
      | .error e => .error e
      | .ok place =>
        match fs.keys.find? fun key => Place.inside (pathNames key) == place with
        | some key => if endsAsDirectory path then .error (.notADirectory path) else .ok key
        | none =>
          .error (if path.isEmpty || !fs.isDirectory place then .notFound path
            else .isDirectory path) := by
  unfold locate
  by_cases hnul : path.toList.contains '\x00' = true
  · simp only [hnul, if_true]
    rfl
  · by_cases hcontains : fs.contains path = true
    · simp only [hnul, hcontains, if_true, Bool.false_eq_true, if_false]
      rfl
    · simp only [hnul, hcontains, Bool.false_eq_true, if_false]
      cases fs.follow path with
      | error e => rfl
      | ok place =>
        simp only [bind, Except.bind]
        cases fs.keys.find? fun key => Place.inside (pathNames key) == place with
        | none => by_cases hd : (path.isEmpty || !fs.isDirectory place) = true <;> simp [hd] <;> rfl
        | some key => by_cases he : endsAsDirectory path = true <;> simp [he] <;> rfl

theorem mem_keys_of_locate (h : fs.locate path = .ok key) : key ∈ fs.keys := by
  rw [locate_eq] at h
  split at h
  · cases h
  · split at h
    · rename_i hcontains
      obtain rfl := Except.ok.inj h
      exact Table.contains_iff.mp hcontains
    · split at h
      · cases h
      · split at h
        · rename_i found hfound
          split at h
          · cases h
          · obtain rfl := Except.ok.inj h
            exact List.mem_of_find?_eq_some hfound
        · cases h

theorem write_eq (h : fs.locate path = .ok key) : fs.write path content = fs.insert key content := by
  rw [write, h]

theorem keys_write (fs : Files) (path content : String) : (fs.write path content).keys = fs.keys := by
  cases h : fs.locate path with
  | error e => rw [write, h]
  | ok key => rw [write_eq h, Table.keys_insert_of_mem (mem_keys_of_locate h)]

theorem locate_write (fs : Files) (path content : String) :
    (fs.write path content).locate = fs.locate := locate_congr (keys_write fs path content)

theorem read_write (h : fs.locate path = .ok key) :
    (fs.write path content).read path = .ok content := by
  have hlocate : (fs.write path content).locate path = .ok key := by rw [locate_write, h]
  rw [read, hlocate, write_eq h]
  simp [bind, Except.bind, pure, Except.pure]

theorem read_write_of_ne (h : fs.locate other ≠ fs.locate path) :
    (fs.write path content).read other = fs.read other := by
  cases hpath : fs.locate path with
  | error e => rw [write, hpath]
  | ok key =>
    rw [read, locate_write, write_eq hpath, read]
    cases hother : fs.locate other with
    | error e => rfl
    | ok key' =>
      have hne : key' ≠ key := by
        rintro rfl
        exact h (hother.trans hpath.symm)
      simp only [bind, Except.bind, Table.get?_insert_of_ne hne]

theorem write_write : (fs.write path content).write path other = fs.write path other := by
  cases h : fs.locate path with
  | error e => simp [write, h]
  | ok key =>
    have hlocate : (fs.write path content).locate path = .ok key := by rw [locate_write, h]
    rw [write_eq hlocate, write_eq h, write_eq h, Table.insert_insert]

theorem exists_locate_of_read (h : fs.read path = .ok content) : ∃ key, fs.locate path = .ok key := by
  obtain ⟨key, hkey, -⟩ := RuleText.bind_ok.mp h
  exact ⟨key, hkey⟩

theorem loadRule_ok {r : Record} : fs.loadRule path = .ok r ↔
    ∃ text, fs.read path = .ok text ∧ parse text = .ok r := by
  unfold loadRule
  cases hread : fs.read path with
  | error e => simp [Except.mapError, bind, Except.bind]
  | ok text => cases hparse : parse text <;> simp [Except.mapError, bind, Except.bind, hparse]

end Files

namespace Command

variable {fs : Files} {rule text t : String} {r : Record}

theorem format_ok (hr : fs.loadRule rule = .ok r) (hw : RuleText.write r = .ok t) :
    format fs rule true =
      { exit := .ok 0, out := "Rewrote " ++ rule ++ "\n", files := fs.write rule t } := by
  simp [format, withRule, hr, hw]

/-- What a rewrite comes to: an exit code that says so and the text of the rule in its file, or
another exit and the files as they were. -/
theorem format_cases (fs : Files) (rule : String) :
    (∃ r t, fs.loadRule rule = .ok r ∧ RuleText.write r = .ok t ∧
      format fs rule true =
        { exit := .ok 0, out := "Rewrote " ++ rule ++ "\n", files := fs.write rule t }) ∨
    (format fs rule true).exit ≠ .ok 0 ∧ (format fs rule true).files = fs := by
  cases hload : fs.loadRule rule with
  | error e => cases e <;> simp [format, withRule, hload]
  | ok r =>
    cases hwrite : RuleText.write r with
    | error e => simp [format, withRule, hload, hwrite]
    | ok t => exact .inl ⟨r, t, rfl, hwrite, format_ok hload hwrite⟩

theorem format_exit_ok (h : (format fs rule true).exit = .ok 0) :
    ∃ r t, fs.loadRule rule = .ok r ∧ RuleText.write r = .ok t ∧
      (format fs rule true).files = fs.write rule t := by
  rcases format_cases fs rule with ⟨r, t, hload, hwrite, hformat⟩ | ⟨hexit, -⟩
  · exact ⟨r, t, hload, hwrite, by rw [hformat]⟩
  · exact absurd h hexit

/-- The text of a record that was read gives nothing else than the record, and gives it exactly if
none of its pass-through values is empty. -/
theorem parse_written (hp : parse text = .ok r) (hw : RuleText.write r = .ok t) :
    (∀ q, parse t = .ok q → q = r ∧ ∀ e ∈ r.extras.entries, e.2 ≠ "") ∧
      ((∀ e ∈ r.extras.entries, e.2 ≠ "") → parse t = .ok r) := by
  have hreadable := RuleText.readable_of_parse hp
  obtain ⟨hprintable, rfl⟩ := RuleText.write_ok_iff.mp hw
  have hvalue : ∀ s ∈ r.selections, s.IsBlank ∨ s.matcher ≠ .one "" := by
    intro s hs
    refine .inr fun hm => ?_
    have hcomplete := hprintable.complete s hs
    simp [Selection.isComplete, hm, Matcher.isComplete] at hcomplete
  have hiff := RuleText.parse_ruleText_iff hreadable hvalue
  refine ⟨fun q hq => ?_, hiff.mpr⟩
  have hne : ∀ e ∈ r.extras.entries, e.2 ≠ "" := by
    intro e he hempty
    obtain ⟨err, herr⟩ := RuleText.parse_ruleText_of_empty hreadable ⟨e, he, hempty⟩
    cases herr.symm.trans hq
  exact ⟨Except.ok.inj (hq.symm.trans (hiff.mpr hne)), hne⟩

/-- A rewrite that does not exit with zero leaves the files alone. One that does puts the text of the
rule into the file, and one more rewrite changes nothing. That one succeeds, and the text gives the
rule back, exactly if no pass-through value of the rule is empty. -/
theorem format_write_spec (fs : Files) (rule : String) :
    let once := format fs rule true
    let again := format once.files rule true
    (once.exit ≠ .ok 0 → once.files = fs) ∧
      (once.exit = .ok 0 → ∃ text r t, fs.read rule = .ok text ∧ parse text = .ok r ∧
        RuleText.write r = .ok t ∧ once.files.read rule = .ok t ∧ again.files = once.files ∧
        (parse t = .ok r ↔ ∀ e ∈ r.extras.entries, e.2 ≠ "") ∧
        (again.exit = .ok 0 ↔ ∀ e ∈ r.extras.entries, e.2 ≠ "")) := by
  intro once again
  refine ⟨fun hexit => ?_, fun hexit => ?_⟩
  · rcases format_cases fs rule with ⟨r, t, -, -, hformat⟩ | ⟨-, hfiles⟩
    · exact absurd (congrArg Result.exit hformat) hexit
    · exact hfiles
  obtain ⟨r, t, hload, hwrite, hfiles⟩ := format_exit_ok hexit
  obtain ⟨text, hread, hparse⟩ := Files.loadRule_ok.mp hload
  obtain ⟨key, hkey⟩ := Files.exists_locate_of_read hread
  obtain ⟨honly, hback⟩ := parse_written hparse hwrite
  have hreadAgain : once.files.read rule = .ok t := hfiles ▸ Files.read_write hkey
  -- Whatever the second rewrite reads, it is the rule that the first one wrote.
  have hloaded : ∀ q, once.files.loadRule rule = .ok q → q = r ∧
      ∀ e ∈ r.extras.entries, e.2 ≠ "" := by
    intro q hq
    obtain ⟨text', hread', hparse'⟩ := Files.loadRule_ok.mp hq
    obtain rfl : t = text' := Except.ok.inj (hreadAgain.symm.trans hread')
    exact honly q hparse'
  refine ⟨text, r, t, hread, hparse, hwrite, hreadAgain, ?_, ⟨fun hp => (honly r hp).2, hback⟩,
    fun hexit' => ?_, fun hne => ?_⟩
  · rcases format_cases once.files rule with ⟨q, t', hload', hwrite', hformat⟩ | ⟨-, hsame⟩
    · obtain ⟨rfl, -⟩ := hloaded q hload'
      obtain rfl : t = t' := Except.ok.inj (hwrite.symm.trans hwrite')
      have hagain : again.files = once.files.write rule t := congrArg Result.files hformat
      rw [hagain, hfiles, Files.write_write]
    · exact hsame
  · obtain ⟨q, t', hload', -⟩ := format_exit_ok hexit'
    exact (hloaded q hload').2
  · have hloadAgain : once.files.loadRule rule = .ok r :=
      Files.loadRule_ok.mpr ⟨t, hreadAgain, hback hne⟩
    exact congrArg Result.exit (format_ok hloadAgain hwrite)

instance decidableEqOk {ε α : Type} [DecidableEq α] (x : Except ε α) (a : α) :
    Decidable (x = .ok a) :=
  match x with
  | .ok b => decidable_of_iff (b = a) (by simp)
  | .error _ => isFalse nofun

def dated (value : String) : Files :=
  ⟨[("rule.yml", "title: Shell start\ndate: " ++ value ++
    "\ndetection:\n  sel:\n    Image: x\n  condition: sel\n")], by simp⟩

theorem format_dated_again :
    (format (dated "2024") "rule.yml" true).exit = .ok 0 ∧
      (format (format (dated "2024") "rule.yml" true).files "rule.yml" true).files =
        (format (dated "2024") "rule.yml" true).files := by
  have hexit : (format (dated "2024") "rule.yml" true).exit = .ok 0 := by decide +kernel
  obtain ⟨_, _, _, _, _, _, _, hfiles, _⟩ := (format_write_spec (dated "2024") "rule.yml").2 hexit
  exact ⟨hexit, hfiles⟩

/-- A quoted empty value is written bare, and the file is one that cannot be formatted again. -/
theorem empty_value_is_lost :
    (format (dated "''") "rule.yml" true).exit = .ok 0 ∧
      (format (format (dated "''") "rule.yml" true).files "rule.yml" true).exit = .ok 1 := by
  decide +kernel

end Command

end SigmaDesk
