import SigmaDesk.Proofs.Text
import SigmaDesk.Text.Casing

/-!
# Lower-casing twice

Lower-casing leaves its own results alone and makes no line breaks. Both come from what is checked
of the table of runs: no run lowers a code point to one that a run covers, to `İ`, or to a line
break.
-/

namespace SigmaDesk.Text

variable {c : Char} {cs : List Char} {r q : CaseRun} {n : Nat}

namespace CaseRun

def lowest (r : CaseRun) : Nat := (r.first + r.shift).toNat

def highest (r : CaseRun) : Nat := (r.last + r.shift).toNat

/-- Whether a run covers none of the code points from `lowest` to `highest`, of which every other
one counts if they are `alternate`. -/
def clearOf (q : CaseRun) (lowest highest : Nat) (alternate : Bool) : Bool :=
  highest.blt q.first || q.last.blt lowest ||
    (alternate && q.stride == 2 && (lowest + q.first) % 2 == 1)

def alternates (r : CaseRun) : Bool := r.stride == 2 || r.first == r.last

/-- Whether a run lowers nothing to `İ` or to a line break, nor below zero. -/
def isPlain (r : CaseRun) : Bool :=
  0 ≤ r.first + r.shift && (r.highest < 0x130 || 0x130 < r.lowest) &&
    ((0x1E < r.lowest && r.highest < 0x85) || (0x85 < r.lowest && r.highest < 0x2028) ||
      0x2029 < r.lowest)

theorem bounds_of_covers (h : r.covers n = true) :
    r.first ≤ n ∧ n ≤ r.last ∧ (n - r.first) % r.stride = 0 := by
  simpa [covers, and_assoc] using h

theorem isPlain_of_mem (h : r ∈ caseRuns) : r.isPlain = true := by
  have hall : caseRuns.all isPlain = true := by decide +kernel
  exact List.all_eq_true.mp hall r h

theorem clearOf_of_mem (hq : q ∈ caseRuns) (hr : r ∈ caseRuns) :
    q.clearOf r.lowest r.highest r.alternates = true := by
  have hall : (caseRuns.all fun r => caseRuns.all
      (clearOf · r.lowest r.highest r.alternates)) = true := by decide +kernel
  exact List.all_eq_true.mp (List.all_eq_true.mp hall r hr) q hq

theorem image_bounds (h : r.covers n = true) :
    r.lowest ≤ (n + r.shift).toNat ∧ (n + r.shift).toNat ≤ r.highest := by
  obtain ⟨hfirst, hlast, -⟩ := bounds_of_covers h
  unfold lowest highest
  omega

theorem not_covers_image (hr : r ∈ caseRuns) (hq : q ∈ caseRuns) (h : r.covers n = true) :
    q.covers (n + r.shift).toNat = false := by
  obtain ⟨hfirst, -, hstride⟩ := bounds_of_covers h
  obtain ⟨hlowest, hhighest⟩ := image_bounds h
  have hplain := isPlain_of_mem hr
  have hclear := clearOf_of_mem hq hr
  simp only [isPlain, Bool.and_eq_true, decide_eq_true_eq] at hplain
  have hzero : 0 ≤ (r.first : Int) + r.shift := hplain.1.1
  cases hc : q.covers (n + r.shift).toNat with
  | false => rfl
  | true =>
    obtain ⟨hqfirst, hqlast, hqstride⟩ := bounds_of_covers hc
    simp only [clearOf, alternates, Bool.or_eq_true, Bool.and_eq_true, Nat.blt_eq,
      beq_iff_eq] at hclear
    rcases hclear with (habove | hbelow) | ⟨⟨hsame, htwo⟩, hodd⟩
    · omega
    · omega
    · have heven : (n - r.first) % 2 = 0 := by
        rcases hsame with hs | hs
        · rwa [hs] at hstride
        · have := (bounds_of_covers h).2.1
          omega
      rw [htwo] at hqstride
      rw [lowest] at hodd
      omega

end CaseRun

structure Lowered (c : Char) : Prop where
  fixed : lowerChar c = c
  ne_dotted : c ≠ 'İ'
  ne_sigma : c ≠ 'Σ'

theorem lowerChar_of_not_covers (h : ∀ r ∈ caseRuns, r.covers c.toNat = false) :
    lowerChar c = c := by
  have hnone : caseRuns.find? (·.covers c.toNat) = none := by simpa using h
  rw [lowerChar, hnone]

theorem toNat_ofNat_cases (n : Nat) : (Char.ofNat n).toNat = n ∨ (Char.ofNat n).toNat = 0 := by
  by_cases h : n.isValidChar
  · left
    rw [Char.ofNat, dif_pos h]
    rfl
  · right
    rw [Char.ofNat, dif_neg h]
    rfl

theorem lowerChar_cases (c : Char) :
    lowerChar c = c ∧ (∀ r ∈ caseRuns, r.covers c.toNat = false) ∨
      ∃ r ∈ caseRuns, r.covers c.toNat = true ∧
        lowerChar c = Char.ofNat (c.toNat + r.shift).toNat := by
  cases h : caseRuns.find? (·.covers c.toNat) with
  | none =>
    have hall : ∀ r ∈ caseRuns, r.covers c.toNat = false := by simpa using h
    exact .inl ⟨lowerChar_of_not_covers hall, hall⟩
  | some r =>
    have hcov : r.covers c.toNat = true := by simpa using List.find?_some h
    exact .inr ⟨r, List.mem_of_find?_eq_some h, hcov, by rw [lowerChar, h]⟩

theorem lowered_of_not_covers (h : ∀ r ∈ caseRuns, r.covers c.toNat = false) (hd : c ≠ 'İ') :
    Lowered c where
  fixed := lowerChar_of_not_covers h
  ne_dotted := hd
  ne_sigma := by
    rintro rfl
    have hmem : (⟨0x3a3, 0x3ab, 1, 32⟩ : CaseRun) ∈ caseRuns := by decide
    exact absurd (h _ hmem) (by decide)

theorem image_spec (hr : r ∈ caseRuns) (h : r.covers n = true) :
    Lowered (Char.ofNat (n + r.shift).toNat) ∧
      isBreak (Char.ofNat (n + r.shift).toNat) = false := by
  have hplain := CaseRun.isPlain_of_mem hr
  obtain ⟨hlowest, hhighest⟩ := CaseRun.image_bounds h
  simp only [CaseRun.isPlain, Bool.and_eq_true, Bool.or_eq_true, decide_eq_true_eq] at hplain
  obtain ⟨⟨-, hdotted⟩, hbreak⟩ := hplain
  have hzero : ∀ q ∈ caseRuns, q.covers 0 = false := by decide +kernel
  generalize hm : (n + r.shift).toNat = m at *
  have hcov : ∀ q ∈ caseRuns, q.covers m = false := fun q hq =>
    hm ▸ CaseRun.not_covers_image hr hq h
  rcases toNat_ofNat_cases m with hn | hn
  · refine ⟨lowered_of_not_covers (by rwa [hn]) ?_, ?_⟩
    · intro he
      have : m = 0x130 := by rw [← hn, he]; rfl
      omega
    · simp only [isBreak, hn, Bool.or_eq_false_iff, Bool.and_eq_false_iff, decide_eq_false_iff_not,
        beq_eq_false_iff_ne]
      omega
  · refine ⟨lowered_of_not_covers (by rwa [hn]) ?_, ?_⟩
    · intro he
      rw [he] at hn
      exact absurd hn (by decide)
    · simp only [isBreak, hn]
      decide

theorem lowered_lowerChar (h : c ≠ 'İ') (hs : c ≠ 'Σ') : Lowered (lowerChar c) := by
  rcases lowerChar_cases c with ⟨hc, -⟩ | ⟨r, hr, hcov, hc⟩
  · exact ⟨by rw [hc, hc], by rwa [hc], by rwa [hc]⟩
  · rw [hc]
    exact (image_spec hr hcov).1

theorem eq_of_isBreak_lowerChar (h : isBreak (lowerChar c) = true) : lowerChar c = c := by
  rcases lowerChar_cases c with ⟨hc, -⟩ | ⟨r, hr, hcov, hc⟩
  · exact hc
  · rw [hc, (image_spec hr hcov).2] at h
    exact absurd h (by decide)

theorem lowerChar_of_isBreak (h : isBreak c = true) : lowerChar c = c := by
  have hall : ∀ n ∈ [0x0A, 0x0B, 0x0C, 0x0D, 0x1C, 0x1D, 0x1E, 0x85, 0x2028, 0x2029],
      ∀ r ∈ caseRuns, r.covers n = false := by
    decide +kernel
  refine lowerChar_of_not_covers (hall _ ?_)
  simp only [isBreak, Bool.or_eq_true, Bool.and_eq_true, decide_eq_true_eq, beq_iff_eq] at h
  simp only [List.mem_cons, List.not_mem_nil, or_false]
  omega

theorem lowered_special (h : c ∈ ['i', '\u0307', 'ς', 'σ']) : Lowered c ∧ isBreak c = false := by
  have hcov : ∀ n ∈ [0x69, 0x307, 0x3c2, 0x3c3], ∀ r ∈ caseRuns, r.covers n = false := by
    decide +kernel
  simp only [List.mem_cons, List.not_mem_nil, or_false] at h
  rcases h with rfl | rfl | rfl | rfl
  · exact ⟨lowered_of_not_covers (hcov _ (by decide)) (by decide), by decide⟩
  · exact ⟨lowered_of_not_covers (hcov _ (by decide)) (by decide), by decide⟩
  · exact ⟨lowered_of_not_covers (hcov _ (by decide)) (by decide), by decide⟩
  · exact ⟨lowered_of_not_covers (hcov _ (by decide)) (by decide), by decide⟩

theorem mem_lowerFrom {b : Bool} (h : c ∈ lowerFrom b cs) :
    Lowered c ∧ (isBreak c = true → c ∈ cs) := by
  induction cs generalizing b with
  | nil => simp [lowerFrom] at h
  | cons d cs ih =>
    -- Two characters are lowered by name, to these four; all others go by the runs.
    have hspecial : c ∈ ['i', '\u0307', 'ς', 'σ'] →
        Lowered c ∧ (isBreak c = true → c ∈ d :: cs) := fun hc =>
      ⟨(lowered_special hc).1, fun hb => by simp [(lowered_special hc).2] at hb⟩
    have hrest {b : Bool} (hc : c ∈ lowerFrom b cs) :
        Lowered c ∧ (isBreak c = true → c ∈ d :: cs) :=
      ⟨(ih hc).1, fun hb => List.mem_cons_of_mem _ ((ih hc).2 hb)⟩
    rw [lowerFrom] at h
    by_cases hdotted : d = 'İ'
    · rw [if_pos hdotted, List.mem_cons, List.mem_cons] at h
      rcases h with rfl | rfl | h
      · exact hspecial (by simp)
      · exact hspecial (by simp)
      · exact hrest h
    · by_cases hsigma : d = 'Σ'
      · rw [if_neg hdotted, if_pos hsigma, List.mem_cons] at h
        rcases h with rfl | h
        · refine hspecial ?_
          split <;> simp
        · exact hrest h
      · rw [if_neg hdotted, if_neg hsigma, List.mem_cons] at h
        rcases h with rfl | h
        · refine ⟨lowered_lowerChar hdotted hsigma, fun hb => ?_⟩
          rw [eq_of_isBreak_lowerChar hb]
          exact List.mem_cons_self
        · exact hrest h

theorem mem_lowerFrom_of_isBreak {b : Bool} (hc : isBreak c = true) (h : c ∈ cs) :
    c ∈ lowerFrom b cs := by
  induction cs generalizing b with
  | nil => simp at h
  | cons d cs ih =>
    rw [lowerFrom]
    rcases List.mem_cons.mp h with rfl | h
    · have hdotted : c ≠ 'İ' := by
        rintro rfl
        exact absurd hc (by decide)
      have hsigma : c ≠ 'Σ' := by
        rintro rfl
        exact absurd hc (by decide)
      rw [if_neg hdotted, if_neg hsigma, lowerChar_of_isBreak hc]
      exact List.mem_cons_self
    · split
      · exact List.mem_cons_of_mem _ (List.mem_cons_of_mem _ (ih h))
      · split <;> exact List.mem_cons_of_mem _ (ih h)

theorem lowerFrom_of_lowered {b : Bool} (h : ∀ c ∈ cs, Lowered c) : lowerFrom b cs = cs := by
  induction cs generalizing b with
  | nil => rfl
  | cons c cs ih =>
    have hc := h c (by simp)
    rw [lowerFrom, ih fun d hd => h d (by simp [hd])]
    simp [hc.ne_dotted, hc.ne_sigma, hc.fixed]

theorem lower_of_lowered {s : String} (h : ∀ c ∈ s.toList, Lowered c) : lower s = s := by
  rw [lower, lowerFrom_of_lowered h, String.ofList_toList]

theorem lowered_of_mem_lower {s : String} (h : c ∈ (lower s).toList) : Lowered c := by
  rw [lower, String.toList_ofList] at h
  exact (mem_lowerFrom h).1

@[simp] theorem lower_lower (s : String) : lower (lower s) = lower s :=
  lower_of_lowered fun _ => lowered_of_mem_lower

theorem mem_lower_iff {s : String} (hc : isBreak c = true) :
    c ∈ (lower s).toList ↔ c ∈ s.toList := by
  rw [lower, String.toList_ofList]
  exact ⟨fun h => (mem_lowerFrom h).2 hc, mem_lowerFrom_of_isBreak hc⟩

theorem all_lower {p : Char → Bool} (hp : ∀ c, p c = false → isBreak c = true) (s : String) :
    (lower s).toList.all p = s.toList.all p := by
  rw [Bool.eq_iff_iff, List.all_eq_true, List.all_eq_true]
  constructor
  · intro h c hc
    cases hpc : p c with
    | true => rfl
    | false => exact absurd (h c ((mem_lower_iff (hp c hpc)).mpr hc)) (by simp [hpc])
  · intro h c hc
    cases hpc : p c with
    | true => rfl
    | false => exact absurd (h c ((mem_lower_iff (hp c hpc)).mp hc)) (by simp [hpc])

@[simp] theorem unbroken_lower (s : String) : unbroken (lower s) = unbroken s :=
  all_lower (by simp) s

@[simp] theorem isSingleLine_lower (s : String) : isSingleLine (lower s) = isSingleLine s :=
  all_lower (fun c hc => isBreak_of_isLineFeedOrReturn (by simpa using hc)) s

theorem lowest_of_mem (h : r ∈ caseRuns) : 0x61 ≤ r.lowest := by
  have hall : (caseRuns.all fun r => decide (0x61 ≤ r.lowest)) = true := by decide +kernel
  simpa using List.all_eq_true.mp hall r h

theorem eq_of_lowerChar_eq {d : Char} (hpos : 0 < d.toNat) (hlt : d.toNat < 0x41)
    (h : lowerChar c = d) : c = d := by
  rcases lowerChar_cases c with ⟨hc, -⟩ | ⟨r, hr, hcov, hc⟩
  · rw [← hc, h]
  · obtain ⟨hlowest, -⟩ := CaseRun.image_bounds hcov
    have hbound := lowest_of_mem hr
    rw [hc] at h
    rcases toNat_ofNat_cases (c.toNat + r.shift).toNat with hn | hn
    · rw [h] at hn
      omega
    · rw [h] at hn
      omega

theorem eq_nil_of_lowerFrom {b : Bool} (h : lowerFrom b cs = []) : cs = [] := by
  cases cs with
  | nil => rfl
  | cons c cs =>
    rw [lowerFrom] at h
    split at h
    · cases h
    · split at h <;> cases h

theorem eq_of_lowerFrom_eq {b : Bool} {d : Char} (hpos : 0 < d.toNat) (hlt : d.toNat < 0x41)
    (h : lowerFrom b cs = [d]) : cs = [d] := by
  cases cs with
  | nil => cases h
  | cons c cs =>
    rw [lowerFrom] at h
    split at h
    · cases h
    · split at h
      · have hd := (List.cons.inj h).1
        split at hd <;> subst hd <;> exact absurd hlt (by decide)
      · obtain ⟨hd, hrest⟩ := List.cons.inj h
        rw [eq_nil_of_lowerFrom hrest, eq_of_lowerChar_eq hpos hlt hd]

theorem eq_of_lower_eq {s : String} {d : Char} (hpos : 0 < d.toNat) (hlt : d.toNat < 0x41)
    (h : lower s = String.ofList [d]) : s = String.ofList [d] := by
  have hlist : lowerFrom false s.toList = [d] := by
    simpa [lower] using congrArg String.toList h
  rw [← eq_of_lowerFrom_eq hpos hlt hlist, String.ofList_toList]

end SigmaDesk.Text
