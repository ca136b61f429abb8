import SigmaDesk.Proofs.Edit
import SigmaDesk.Proofs.Session.Lasting
import SigmaDesk.Proofs.Session.Reachable
import SigmaDesk.Proofs.Store

/-!
# Saved rules are read back

A rule that a session saved in memory is read back from there as the session has it. What the gate
asks for is enough for that, except where texts are broken into lines by the rarer breaks.
-/

namespace SigmaDesk

def Selection.Clear (s : Selection) : Prop :=
  ∀ v ∈ s.fieldKey :: s.matcher.texts, ∀ ch ∈ v.toList, ch ∉ Text.rareBreaks

theorem Selection.clear_iff {s : Selection} : s.Clear ↔ ((s.fieldKey :: s.matcher.texts).all
    fun v => v.toList.all (· ∉ Text.rareBreaks)) = true := by
  simp only [Clear, List.all_eq_true, decide_eq_true_eq]

-- Not by the quantifiers: all characters there are would be gone through.
instance (s : Selection) : Decidable s.Clear := decidable_of_iff' _ Selection.clear_iff

theorem Selection.storable_of_clean {s : Selection} (h : Gate.CleanSelection s) (hclear : s.Clear) :
    s.Storable := by
  obtain ⟨hkey, hcondition, -, hname⟩ := Check.selectionName_spec h.name
  refine ⟨hkey, hcondition, RuleText.hasField_of_clean h, RuleText.isComplete_of_clean h, ?_⟩
  have hline : ∀ v ∈ s.fieldKey :: s.matcher.texts, Text.isSingleLine v = true := by
    rintro v (_ | ⟨_, hv⟩)
    · exact (Check.fieldKey_spec h.field).2.2.1
    · exact (Check.matcher_spec h.value).2.2 v hv
  rintro v (_ | ⟨_, hv⟩)
  · exact hname
  · exact Text.unbroken_of_isSingleLine (hline v hv) (hclear v hv)

theorem Record.storable_of_clean {c : Catalog} {r : Record} (h : Gate.Clean c r)
    (hclear : ∀ s ∈ r.selections, s.Clear) : r.Storable where
  condition := (RuleText.printableDetection_of_clean h).condition
  term t ht := (RuleText.spec_of_term h t ht).1
  selection s hs := Selection.storable_of_clean (h.selection s hs) (hclear s hs)
  distinct := h.distinct

namespace Record

def Lowered (r : Record) : Prop := Text.lower r.level = r.level

variable {r r' : Record}

theorem Lowered.congr (h : r.Lowered) (he : r'.level = r.level) : r'.Lowered := by
  rw [Lowered, he]
  exact h

theorem level_setItems (r : Record) (f : ListField) (vs : List String) :
    (r.setItems f vs).level = r.level := by
  cases f <;> rfl

theorem Lowered.edited (h : r.Lowered) (he : Edited r r') : r'.Lowered := by
  cases he with
  | text f value =>
    cases f with
    | level => exact Text.lower_lower value
    | _ => exact h
  | items f values => exact h.congr (r.level_setItems f values)
  | selections => exact h
  | condition => exact h

end Record

namespace Session

variable {c : Catalog} {s : Session} {r : Record} {q : Store.Request} {p : Submission}

theorem lasting_lowered : Lasting (fun _ => True) Record.Lowered where
  edit _ h he := h.edited (Record.edited_of_apply he)
  read hparse := (RuleText.readable_of_parse hparse).level
  identify _ h := h

theorem lowered_run (h : s.record.Lowered) (as : List Action) : (s.run c as).record.Lowered :=
  lasting_lowered.run h as fun _ _ => trivial

theorem lowered_toSubmit (h : s.record.Lowered) (hr : s.toSubmit = .ok r) : r.Lowered :=
  lasting_lowered.toSubmit h hr

def inMemory (m : Store.Memory) (fresh : String) : Store.Request → Reply :=
  fun q => { outcome := (m.write fresh q).1 }

theorem Asks.document (h : Asks r q) : r.document = .ok q.document := by
  cases h with
  | update _ _ hd => exact hd
  | create _ hd => exact hd

theorem Asks.target_ne_empty (h : Asks r q) {fresh : String} (hfresh : fresh ≠ "") :
    q.target fresh ≠ "" := by
  cases h with
  | update _ hne _ => exact hne
  | create _ _ => exact hfresh

theorem hydrate_of_saved (hidle : s.state ≠ .submitting) (h : s.record.Lowered) {m : Store.Memory}
    {fresh : String} (hfresh : fresh ≠ "") (hp : s.submit c (inMemory m fresh) = p)
    (hsaved : p.verdict = .ok true) (hclear : ∀ s ∈ p.session.record.selections, s.Clear) :
    ∃ id d, p.session.record.id = some id ∧ (m.after fresh p.requests).get? id = some d ∧
      d.hydrate = .ok (.ofRecord p.session.record) := by
  have houtcome : Saved s (inMemory m fresh) p := by
    subst hp
    refine (saved_or_failed hidle _).resolve_right fun hf => ?_
    have hfailed := hf.saved
    rw [Submission.saved, hsaved] at hfailed
    cases hfailed
  obtain ⟨r, q, id, hr, hq, hstored, hrecord⟩ := houtcome.record
  have hask : q ∈ (s.submit c (inMemory m fresh)).requests := by simp [hp, hq]
  obtain ⟨r', hr', haccepted, hasks⟩ := (mem_requests_iff hidle _).mp hask
  cases hr.symm.trans hr'
  obtain ⟨htarget, hget⟩ := Store.Memory.get?_of_stored hstored
  rw [hrecord] at hclear ⊢
  rw [hq]
  have hstorable := Record.storable_of_clean (Gate.submittable_iff.mp haccepted) hclear
  refine ⟨id, _, rfl, hget, ?_⟩
  exact Document.hydrate_withId (lowered_toSubmit h hr)
    (htarget ▸ hasks.target_ne_empty hfresh) hstorable hasks.document

theorem lowered_start {r? : Option Record} (h : ∀ r ∈ r?, Text.lower r.level = r.level) :
    (start r?).record.Lowered := by
  cases r? with
  | none => rfl
  | some r => exact h r rfl

/-- Whatever has been done in a session, and whatever the store in memory holds: a rule that is
saved is then in the store under its identifier, and is read back from there as the session has it.
Only rare line breaks in a field or a value are ruled out. -/
theorem reload_of_saved {r? : Option Record} (hlevel : ∀ r ∈ r?, Text.lower r.level = r.level)
    (as : List Action) (m : Store.Memory) (bits : Nat)
    (hp : ((start r?).run c as).submit c (inMemory m (Store.mintedId bits)) = p)
    (hsaved : p.verdict = .ok true) (hclear : ∀ s ∈ p.session.record.selections, s.Clear) :
    ∃ id d, p.session.record.id = some id ∧
      (m.after (Store.mintedId bits) p.requests).get? id = some d ∧
      d.hydrate = .ok (.ofRecord p.session.record) := by
  have hstart := (consistent_start c r?).idle
  exact hydrate_of_saved (idle_run hstart as) (lowered_run (lowered_start hlevel) as)
    (Store.mintedId_ne_empty bits) hp hsaved hclear

def archived : Submission :=
  ((start (some (RuleText.tagged ["attack.a\u2028b"]))).run .standard
    [.op (.edit (.setText .level "CRITICAL"))]).submit .standard (inMemory {} (Store.mintedId 7))

theorem reload_of_saved_archived :
    ((∀ r ∈ some (RuleText.tagged ["attack.a\u2028b"]), Text.lower r.level = r.level) ∧
      archived.verdict = .ok true ∧ ∀ s ∈ archived.session.record.selections, s.Clear) ∧
    ∃ id d, archived.session.record.id = some id ∧
      (Store.Memory.after {} (Store.mintedId 7) archived.requests).get? id = some d ∧
      d.hydrate = .ok (.ofRecord archived.session.record) := by
  have hlevel : ∀ r ∈ some (RuleText.tagged ["attack.a\u2028b"]),
      Text.lower r.level = r.level := by
    decide +kernel
  have hsaved : archived.verdict = .ok true := by decide +kernel
  have hclear : ∀ s ∈ archived.session.record.selections, s.Clear := by
    have hselections : archived.session.record.selections =
        (RuleText.tagged []).selections := by decide +kernel
    rw [hselections]
    decide
  exact ⟨⟨hlevel, hsaved, hclear⟩, reload_of_saved hlevel _ {} 7 rfl hsaved hclear⟩

end Session

end SigmaDesk
