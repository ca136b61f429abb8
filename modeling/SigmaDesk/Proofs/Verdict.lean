import SigmaDesk.Proofs.Format
import SigmaDesk.Proofs.RuleText.Flat
import SigmaDesk.Proofs.Session.FromText
import SigmaDesk.Proofs.Store
import SigmaDesk.Yaml.Datum

/-!
# The verdict on a file

Whether a rule passes `check`, after its file has been rewritten by `format`, and next to a dry run.
-/

namespace SigmaDesk

namespace Command

variable {δ : Type} {yaml : Yaml.Loader δ} {fs gs : Files} {rule fresh : String}
  {cat : CatalogSource} {c : Catalog} {r : Record}

theorem withRule_loaded {next : Record → Result} (hr : fs.loadRule rule = .ok r) :
    withRule fs rule next = next r := by
  unfold withRule
  rw [hr]

theorem exit_withRule_unread {next : Record → Result} {e : Files.LoadError}
    (hr : fs.loadRule rule = .error e) : (withRule fs rule next).exit ≠ .ok 0 := by
  unfold withRule
  rw [hr]
  cases e <;> simp

theorem check_loaded (hcat : loadCatalog yaml fs cat = .ok c) (hr : fs.loadRule rule = .ok r) :
    (check yaml fs cat rule).exit = .ok (if (Gate.evaluate c r).submittable then 0 else 1) := by
  unfold check
  rw [withRule_loaded hr, hcat]
  dsimp only
  split <;> rfl

theorem check_unread {text : String} {e : RuleText.ParseError} (hread : fs.read rule = .ok text)
    (hparse : RuleText.parse text = .error e) : (check yaml fs cat rule).exit = .ok 1 := by
  have hload : fs.loadRule rule = .error (.parse e) := by
    simp [Files.loadRule, hread, hparse, Except.mapError, bind, Except.bind]
  unfold check withRule
  rw [hload]

theorem check_exit_ok_iff (hcat : loadCatalog yaml fs cat = .ok c) :
    (check yaml fs cat rule).exit = .ok 0 ↔
      ∃ r, fs.loadRule rule = .ok r ∧ (Gate.evaluate c r).submittable = true := by
  cases hr : fs.loadRule rule with
  | error e => exact iff_of_false (exit_withRule_unread hr) nofun
  | ok r =>
    rw [check_loaded hcat hr]
    cases hgate : (Gate.evaluate c r).submittable <;> simp [hgate]

/-- The file of the catalog is not that of the rule. -/
def Apart (fs : Files) (rule : String) : CatalogSource → Prop
  | .file path => fs.locate (plainPath path) ≠ fs.locate rule
  | _ => True

theorem loadCatalog_write {t : String} (h : Apart fs rule cat) :
    loadCatalog yaml (fs.write rule t) cat = loadCatalog yaml fs cat := by
  cases cat with
  | file path => rw [loadCatalog, loadCatalog, Files.read_write_of_ne h]
  | _ => rfl

theorem not_submittable_of_empty {e : String × String} (he : e ∈ r.extras.entries)
    (hempty : e.2 = "") : (Gate.evaluate c r).submittable = false := by
  refine Bool.eq_false_iff.mpr fun hgate => ?_
  exact (Check.extra_spec ((Gate.submittable_iff.mp hgate).extra e he)).2.2.1 hempty

/-- A rewrite leaves the verdict of a check as it was: a rule whose text gives it back is the same
rule, and one whose text does not was refused before. The catalog stays what it is unless the rule's
file is the catalog. -/
theorem check_format (hcat : loadCatalog yaml fs cat = .ok c)
    (hformat : (format fs rule true).exit = .ok 0) :
    let rewritten := (format fs rule true).files
    (Apart fs rule cat → loadCatalog yaml rewritten cat = .ok c) ∧
      (loadCatalog yaml rewritten cat = .ok c →
        ∃ code, (check yaml fs cat rule).exit = .ok code ∧
          (check yaml rewritten cat rule).exit = .ok code) := by
  obtain ⟨r, t, hload, hwrite, hfiles⟩ := format_exit_ok hformat
  obtain ⟨text, hread, hparse⟩ := Files.loadRule_ok.mp hload
  obtain ⟨key, hkey⟩ := Files.exists_locate_of_read hread
  obtain ⟨honly, hback⟩ := parse_written hparse hwrite
  have hreread : (fs.write rule t).read rule = .ok t := Files.read_write hkey
  simp only [hfiles]
  refine ⟨fun hapart => (loadCatalog_write hapart).trans hcat, fun hcatalog =>
    ⟨_, check_loaded hcat hload, ?_⟩⟩
  cases hreparse : RuleText.parse t with
  | ok q =>
    obtain ⟨rfl, -⟩ := honly q hreparse
    exact check_loaded hcatalog (Files.loadRule_ok.mpr ⟨t, hreread, hreparse⟩)
  | error e =>
    -- Only an empty pass-through value is written as what cannot be read.
    obtain ⟨x, hx, hempty⟩ : ∃ x ∈ r.extras.entries, x.2 = "" := by
      by_contra hnone
      push Not at hnone
      cases hreparse.symm.trans (hback hnone)
    rw [not_submittable_of_empty hx hempty]
    exact check_unread hreread hreparse

def desk : Catalog := ⟨["windows"], ["high"], ["test"], "attack."⟩

def deskText : String :=
  "log_types: [windows]\nlevels: [High]\nstatuses: ['test']\ntag_prefix: attack.\n"

def holding (text : String) : Files := ⟨[("rule.yml", text), ("desk.yml", deskText)], by simp⟩

theorem loadCatalog_holding (text : String) :
    loadCatalog Yaml.loader (holding text) (.file "desk.yml") = .ok desk := by
  have hread : (holding text).read (plainPath "desk.yml") = .ok deskText := rfl
  have hcatalog : Catalog.read Yaml.loader (fileName "desk.yml") deskText = .ok desk := by
    decide +kernel
  simp [loadCatalog, hread, hcatalog, Except.mapError, bind, Except.bind]

theorem loadRule_holding {text : String} (h : RuleText.parse text = .ok r) :
    (holding text).loadRule "rule.yml" = .ok r :=
  Files.loadRule_ok.mpr ⟨text, rfl, h⟩

/-- A complete rule as it is written without its indentation. -/
def unindented : Files := holding (RuleText.flatText (RuleText.ruleText (RuleText.tagged [])))

theorem loadRule_unindented : unindented.loadRule "rule.yml" = .ok (RuleText.tagged []) := by
  have hdraft : (RuleText.tagged []).Draft := by decide +kernel
  have hflat : ∀ sel ∈ (RuleText.tagged []).selections, sel.Flat :=
    List.forall_mem_singleton.mpr ⟨by decide, by decide⟩
  exact loadRule_holding (RuleText.parse_flatText_ruleText hdraft hflat)

theorem submittable_tagged : (Gate.evaluate desk (RuleText.tagged [])).submittable = true := by
  decide +kernel

theorem check_unindented :
    (check Yaml.loader unindented (.file "desk.yml") "rule.yml").exit = .ok 0 :=
  (check_exit_ok_iff (loadCatalog_holding _)).mpr ⟨_, loadRule_unindented, submittable_tagged⟩

theorem check_format_unindented :
    loadCatalog Yaml.loader unindented (.file "desk.yml") = .ok desk ∧
      Apart unindented "rule.yml" (.file "desk.yml") ∧
      (format unindented "rule.yml" true).exit = .ok 0 ∧
      (check Yaml.loader unindented (.file "desk.yml") "rule.yml").exit = .ok 0 ∧
      (check Yaml.loader (format unindented "rule.yml" true).files (.file "desk.yml")
        "rule.yml").exit = .ok 0 := by
  have hcatalog : Check.UnbrokenCatalog desk := ⟨by decide, by decide, by decide⟩
  have hprintable : RuleText.Printable (RuleText.tagged []) :=
    RuleText.printable_of_clean hcatalog rfl (Gate.submittable_iff.mp submittable_tagged)
  have hformat : (format unindented "rule.yml" true).exit = .ok 0 := by
    rw [format_ok loadRule_unindented (RuleText.write_ok_iff.mpr ⟨hprintable, rfl⟩)]
  have hcat := loadCatalog_holding (RuleText.flatText (RuleText.ruleText (RuleText.tagged [])))
  have hapart : Apart unindented "rule.yml" (.file "desk.yml") := by
    show Files.locate _ _ ≠ Files.locate _ _
    decide +kernel
  obtain ⟨hsame, hverdict⟩ := check_format hcat hformat
  obtain ⟨code, hbefore, hafter⟩ := hverdict (hsame hapart)
  exact ⟨hcat, hapart, hformat, check_unindented,
    hafter.trans (hbefore.symm.trans check_unindented)⟩

theorem dryRun_loaded (hcat : loadCatalog yaml fs cat = .ok c) (hr : fs.loadRule rule = .ok r)
    (fresh : String) : dryRun yaml fs fresh cat rule = submitRecord fs c rule "dry-run" "" r
      (fun req => ⟨(({} : Store.Memory).write fresh req).1, []⟩) fun _ => [] := by
  unfold dryRun
  rw [withRule_loaded hr, hcat]

theorem exit_submitRecord_refused {target out : String} {store : Store.Request → Session.Reply}
    {log : List Store.Request → List Store.LogEntry}
    (h : ((Session.start (some r)).submit c store).verdict = .ok false) :
    (submitRecord fs c rule target out r store log).exit = .ok 1 := by
  unfold submitRecord
  dsimp only
  rw [h]

/-- What a dry run says when the gate lets the rule pass: a rule without an identifier is kept, and
one with an identifier is refused, as nothing has been kept before. -/
theorem dryRun_submittable (hcat : loadCatalog yaml fs cat = .ok c) (hr : fs.loadRule rule = .ok r)
    (hgate : (Gate.evaluate c r).submittable = true) (fresh : String) :
    dryRun yaml fs fresh cat rule =
      match r.id with
      | none =>
        { exit := .ok 0
          out := "Submitted " ++ rule ++ "  id=" ++ fresh ++ "  dry-run\n"
          files := fs }
      | some id =>
        { exit := .ok 1
          err := Session.failed "update" ("Rule not found: " ++ id) ++ "\n"
          files := fs } := by
  obtain ⟨text, -, hparse⟩ := Files.loadRule_ok.mp hr
  obtain ⟨d, hd⟩ := Document.exists_document
    (RuleText.printableDetection_of_clean (Gate.submittable_iff.mp hgate))
  have hsubmit (store : Store.Request → Session.Reply) :
      (Session.start (some r)).submit c store = _ := Session.submit_structured nofun rfl hgate hd
  rw [dryRun_loaded hcat hr]
  unfold submitRecord
  rw [hsubmit]
  cases hid : r.id with
  | none =>
    have hask : Session.request (Session.start (some r)).record d = .create d :=
      Session.request_create hid
    have hassign : (Session.start (some r)).record.assignId fresh =
        .ok { r with id := some fresh } := by
      rw [Session.start, Record.assignId, hid]
    simp only [hask, Session.answered, Session.answerCalls, Store.Memory.write, Session.settle,
      hassign]
    simp [String.append_assoc, String.join]
  | some id =>
    have hne : id ≠ "" := by
      rintro rfl
      exact (RuleText.readable_of_parse hparse).id hid
    obtain ⟨hask, hact⟩ := Session.request_update (d := d) (show (Session.start (some r)).record.id =
      some id from hid) hne
    simp only [hask, hact, Session.answered, Session.answerCalls, Store.Memory.write_update_empty,
      Session.settle]
    have hlines : fieldLines .empty = "" := rfl
    simp [String.join, Session.notify, Session.start, hlines]

theorem dryRun_refused (hcat : loadCatalog yaml fs cat = .ok c) (hr : fs.loadRule rule = .ok r)
    (hgate : (Gate.evaluate c r).submittable = false) (fresh : String) :
    (dryRun yaml fs fresh cat rule).exit = .ok 1 := by
  rw [dryRun_loaded hcat hr]
  exact exit_submitRecord_refused
    (Session.submit_refused (s := .start (some r)) nofun rfl hgate).1

/-- A dry run and a check agree on the rules that have no identifier yet, whatever identifier the
rule would get. A rule that has one passes the check only: the store of a dry run, in which nothing
has been kept, does not find it. -/
theorem dryRun_exit_ok_iff (hcat : loadCatalog yaml fs cat = .ok c) (fresh : String) :
    ((dryRun yaml fs fresh cat rule).exit = .ok 0 ↔
        (check yaml fs cat rule).exit = .ok 0 ∧ ∀ r, fs.loadRule rule = .ok r → r.id = none) ∧
      ∀ r id, fs.loadRule rule = .ok r → r.id = some id → (check yaml fs cat rule).exit = .ok 0 →
        dryRun yaml fs fresh cat rule =
          { exit := .ok 1
            err := Session.failed "update" ("Rule not found: " ++ id) ++ "\n"
            files := fs } := by
  -- The gate decides for both alike; what passes it is told apart by the identifier alone.
  refine ⟨⟨fun hexit => ?_, fun ⟨hexit, hnew⟩ => ?_⟩, fun r id hr hid hexit => ?_⟩
  · cases hr : fs.loadRule rule with
    | error e => exact absurd hexit (exit_withRule_unread hr)
    | ok r =>
      cases hgate : (Gate.evaluate c r).submittable with
      | false =>
        rw [dryRun_refused hcat hr hgate] at hexit
        cases hexit
      | true =>
        refine ⟨(check_exit_ok_iff hcat).mpr ⟨r, hr, hgate⟩, fun q hq => ?_⟩
        obtain rfl := Except.ok.inj hq
        rw [dryRun_submittable hcat hr hgate] at hexit
        cases hid : r.id with
        | none => rfl
        | some id =>
          rw [hid] at hexit
          cases hexit
  · obtain ⟨r, hr, hgate⟩ := (check_exit_ok_iff hcat).mp hexit
    rw [dryRun_submittable hcat hr hgate, hnew r hr]
  · obtain ⟨q, hq, hgate⟩ := (check_exit_ok_iff hcat).mp hexit
    obtain rfl := Except.ok.inj (hr.symm.trans hq)
    rw [dryRun_submittable hcat hr hgate, hid]

theorem dryRun_exit_ok_unsaved :
    loadCatalog Yaml.loader unindented (.file "desk.yml") = .ok desk ∧
      (dryRun Yaml.loader unindented "fresh" (.file "desk.yml") "rule.yml").exit = .ok 0 := by
  have hcat := loadCatalog_holding (RuleText.flatText (RuleText.ruleText (RuleText.tagged [])))
  have hnew : ∀ r, unindented.loadRule "rule.yml" = .ok r → r.id = none := by
    intro r hr
    obtain rfl := Except.ok.inj (loadRule_unindented.symm.trans hr)
    rfl
  exact ⟨hcat, (dryRun_exit_ok_iff hcat "fresh").1.mpr ⟨check_unindented, hnew⟩⟩

def saved : Files := holding (RuleText.preview Session.owned)

/-- A rule that has been saved passes the check and not the dry run. -/
theorem check_passes_and_dryRun_fails :
    loadCatalog Yaml.loader saved (.file "desk.yml") = .ok desk ∧
      (check Yaml.loader saved (.file "desk.yml") "rule.yml").exit = .ok 0 ∧
      (dryRun Yaml.loader saved "fresh" (.file "desk.yml") "rule.yml").exit = .ok 1 := by
  have hcat := loadCatalog_holding (RuleText.preview Session.owned)
  have hdraft : Session.owned.Draft := by decide +kernel
  have hload : saved.loadRule "rule.yml" = .ok Session.owned :=
    loadRule_holding (RuleText.parse_preview hdraft)
  -- The gate does not look at the identifier.
  have hgate : (Gate.evaluate desk Session.owned).submittable = true := submittable_tagged
  refine ⟨hcat, (check_exit_ok_iff hcat).mpr ⟨_, hload, hgate⟩, ?_⟩
  have hrun := dryRun_submittable hcat hload hgate "fresh"
  exact congrArg Result.exit hrun

end Command

end SigmaDesk
