import Mathlib.Data.List.TakeWhile
import SigmaDesk.Text.Lines

/-!
# Trimming, lines and words

A text without blanks at its ends is its own trimming; lines without breaks come back from a text
that is made of them; words that are joined by single spaces come back too.
-/

namespace SigmaDesk.Text

variable {c : Char} {cs l : List Char} {ls ws : List (List Char)}

structure Trimmed (cs : List Char) : Prop where
  head : ∀ c, cs.head? = some c → isBlank c = false
  last : ∀ c, cs.getLast? = some c → isBlank c = false

theorem trimLeft_of_head (h : ∀ c, cs.head? = some c → isBlank c = false) : trimLeft cs = cs := by
  cases cs with
  | nil => rfl
  | cons c cs => simp [trimLeft, h c rfl]

theorem trimRight_of_last (h : ∀ c, cs.getLast? = some c → isBlank c = false) :
    trimRight cs = cs := by
  induction cs with
  | nil => rfl
  | cons c cs ih =>
    cases cs with
    | nil => simp [trimRight, h c rfl]
    | cons d ds =>
      have hr := ih fun e he => h e (by simpa using he)
      rw [trimRight, hr]

theorem Trimmed.trim_eq (h : Trimmed cs) : trim cs = cs := by
  rw [trim, trimRight_of_last h.last, trimLeft_of_head h.head]

theorem prefix_trimRight (cs : List Char) : trimRight cs <+: cs := by
  induction cs with
  | nil => exact List.nil_prefix
  | cons c cs ih =>
    rw [trimRight]
    cases h : trimRight cs with
    | nil => by_cases hc : isBlank c <;> simp [hc]
    | cons d ds =>
      rw [h] at ih
      exact List.cons_prefix_cons.mpr ⟨rfl, ih⟩

theorem last_trimRight (cs : List Char) (c : Char) (h : (trimRight cs).getLast? = some c) :
    isBlank c = false := by
  induction cs with
  | nil => simp at h
  | cons d cs ih =>
    rw [trimRight] at h
    cases hr : trimRight cs with
    | nil =>
      by_cases hd : isBlank d
      · simp [hr, hd] at h
      · obtain rfl : d = c := by simpa [hr, hd] using h
        simpa using hd
    | cons e es =>
      rw [hr] at h ih
      exact ih (by simpa using h)

theorem head?_trimRight (h : trimRight cs ≠ []) : (trimRight cs).head? = cs.head? := by
  obtain ⟨l, hl⟩ := prefix_trimRight cs
  obtain ⟨c, ds, hc⟩ := List.exists_cons_of_ne_nil h
  rw [hc, ← hl, hc]
  rfl

theorem trimRight_append (h : trimRight cs ≠ []) : trimRight (l ++ cs) = l ++ trimRight cs := by
  induction l with
  | nil => rfl
  | cons c l ih =>
    rw [List.cons_append, trimRight, ih]
    split
    · rename_i hnil
      exact absurd (List.append_eq_nil_iff.mp hnil).2 h
    · rename_i hcons
      rw [List.cons_append, hcons]

theorem trimRight_append_of_blank (hb : ∀ c ∈ l, isBlank c = true) (h : trimRight cs = []) :
    trimRight (l ++ cs) = [] := by
  induction l with
  | nil => exact h
  | cons c l ih =>
    rw [List.cons_append, trimRight, ih fun d hd => hb d (List.mem_cons_of_mem _ hd)]
    exact if_pos (hb c List.mem_cons_self)

theorem trimRight_append_blanks (hb : ∀ c ∈ l, isBlank c = true) :
    trimRight (cs ++ l) = trimRight cs := by
  induction cs with
  | nil =>
    have hnil : trimRight (l ++ []) = [] := trimRight_append_of_blank hb rfl
    simpa using hnil
  | cons c cs ih => simp [trimRight, ih]

theorem exists_blanks_of_trimRight (cs : List Char) :
    ∃ l, (∀ c ∈ l, isBlank c = true) ∧ trimRight cs ++ l = cs := by
  induction cs with
  | nil => exact ⟨[], by simp⟩
  | cons c cs ih =>
    obtain ⟨l, hl, hcs⟩ := ih
    rw [trimRight]
    split
    · rename_i hnil
      obtain rfl : l = cs := by simpa [hnil] using hcs
      by_cases hc : isBlank c = true
      · exact ⟨c :: l, by simpa [hc] using hl, by simp [hc]⟩
      · exact ⟨l, hl, by simp [hc]⟩
    · rename_i hcons
      exact ⟨l, hl, by rw [← hcs, hcons, List.cons_append]⟩

theorem trim_suffix (cs : List Char) : trim cs <:+ trimRight cs := List.dropWhile_suffix _

theorem mem_of_mem_trim (h : c ∈ trim cs) : c ∈ cs :=
  (prefix_trimRight cs).subset ((trim_suffix cs).subset h)

theorem trimmed_trim (cs : List Char) : Trimmed (trim cs) where
  head c h := by
    have hd := List.head?_dropWhile_not isBlank (trimRight cs)
    rw [trim, trimLeft] at h
    rw [h] at hd
    simpa using hd
  last c h := by
    obtain ⟨pre, hpre⟩ := trim_suffix cs
    refine last_trimRight cs c ?_
    rw [← hpre, List.getLast?_append, h]
    rfl

theorem trim_eq_self_iff : trim cs = cs ↔ Trimmed cs :=
  ⟨fun h => h ▸ trimmed_trim cs, Trimmed.trim_eq⟩

instance (cs : List Char) : Decidable (Trimmed cs) := decidable_of_iff _ trim_eq_self_iff

theorem isBlank_of_trimRight_eq_nil (h : trimRight cs = []) (hc : c ∈ cs) : isBlank c = true := by
  induction cs with
  | nil => cases hc
  | cons d cs ih =>
    rw [trimRight] at h
    cases hr : trimRight cs with
    | cons e es => simp [hr] at h
    | nil =>
      rcases List.mem_cons.mp hc with rfl | hc
      · simpa [hr] using h
      · exact ih hr hc

theorem isBlank_of_trim_eq_nil (h : trim cs = []) (hc : c ∈ cs) : isBlank c = true := by
  refine isBlank_of_trimRight_eq_nil (List.eq_nil_iff_forall_not_mem.mpr fun d hd => ?_) hc
  obtain ⟨l, hl⟩ := Option.isSome_iff_exists.mp
    (List.getLast?_isSome.mpr (List.ne_nil_of_mem hd))
  have hblank : isBlank l = true :=
    List.dropWhile_eq_nil_iff.mp h l (List.mem_of_getLast? hl)
  rw [last_trimRight cs l hl] at hblank
  cases hblank

theorem last_append {P : Char → Prop} (hne : cs ≠ []) (h : ∀ c, cs.getLast? = some c → P c) :
    ∀ c, (l ++ cs).getLast? = some c → P c := by
  intro c hc
  obtain ⟨d, hd⟩ := Option.isSome_iff_exists.mp (List.getLast?_isSome.mpr hne)
  rw [List.getLast?_append, hd, Option.some_or] at hc
  exact h c (hd.trans hc)

theorem trim_append_of_blank {b : List Char} (hb : ∀ c ∈ b, isBlank c = true)
    (h : Trimmed cs) (hne : cs ≠ []) : trim (b ++ cs) = cs := by
  have hl : trimRight (b ++ cs) = b ++ cs := trimRight_of_last (last_append hne h.last)
  rw [trim, hl, trimLeft, List.dropWhile_append_of_pos hb]
  exact trimLeft_of_head h.head

theorem trim_blanks_append {b : List Char} (hb : ∀ c ∈ b, isBlank c = true) (cs : List Char) :
    trim (b ++ cs) = trim cs := by
  by_cases hnil : trimRight cs = []
  · rw [trim, trim, trimRight_append_of_blank hb hnil, hnil]
  · rw [trim, trimRight_append hnil, trimLeft, List.dropWhile_append_of_pos hb]
    rfl

/-- A text that no character breaks into lines. -/
def unbroken (s : String) : Bool := s.toList.all fun c => !isBreak c

theorem unbroken_iff {s : String} : unbroken s = true ↔ ∀ c ∈ s.toList, isBreak c = false := by
  simp [unbroken]

@[simp] theorem unbroken_ofList : unbroken (String.ofList cs) = cs.all fun c => !isBreak c := by
  simp [unbroken]

@[simp] theorem unbroken_empty : unbroken "" = true := rfl

theorem isBreak_of_isLineFeedOrReturn (h : isLineFeedOrReturn c = true) : isBreak c = true := by
  have hcase : c = '\n' ∨ c = '\r' := by simpa [isLineFeedOrReturn] using h
  rcases hcase with rfl | rfl <;> rfl

/-- The line breaks other than the line feed and the carriage return. -/
def rareBreaks : List Char :=
  ['\x0b', '\x0c', '\x1c', '\x1d', '\x1e', '\u0085', '\u2028', '\u2029']

theorem isBreak_cases (h : isBreak c = true) : isLineFeedOrReturn c = true ∨ c ∈ rareBreaks := by
  have hcode : c.toNat ∈ [0x0A, 0x0B, 0x0C, 0x0D, 0x1C, 0x1D, 0x1E, 0x85, 0x2028, 0x2029] := by
    simp only [isBreak, Bool.or_eq_true, Bool.and_eq_true, decide_eq_true_eq, beq_iff_eq,
      List.mem_cons, List.not_mem_nil, or_false] at h ⊢
    omega
  have hall : ∀ n ∈ [0x0A, 0x0B, 0x0C, 0x0D, 0x1C, 0x1D, 0x1E, 0x85, 0x2028, 0x2029],
      isLineFeedOrReturn (Char.ofNat n) = true ∨ Char.ofNat n ∈ rareBreaks := by decide
  have hc := hall _ hcode
  rwa [Char.ofNat_toNat] at hc

theorem unbroken_of_isSingleLine {s : String} (h : isSingleLine s = true)
    (hrare : ∀ c ∈ s.toList, c ∉ rareBreaks) : unbroken s = true := by
  refine unbroken_iff.mpr fun c hc => ?_
  cases hb : isBreak c with
  | false => rfl
  | true =>
    have hline : isLineFeedOrReturn c = false := by
      simpa using List.all_eq_true.mp h c hc
    rcases isBreak_cases hb with hfeed | hmem
    · cases hline.symm.trans hfeed
    · exact absurd hmem (hrare c hc)

theorem isBlank_of_isBreak (h : isBreak c = true) : isBlank c = true := by
  simp only [isBreak, isBlank, Bool.or_eq_true, Bool.and_eq_true, decide_eq_true_eq,
    beq_iff_eq] at h ⊢
  omega

theorem isSingleLine_of_unbroken {s : String} (h : unbroken s = true) :
    isSingleLine s = true := by
  rw [isSingleLine, List.all_eq_true]
  intro c hc
  cases hl : isLineFeedOrReturn c with
  | false => rfl
  | true =>
    have hb := isBreak_of_isLineFeedOrReturn hl
    rw [unbroken_iff.mp h c hc] at hb
    cases hb

theorem lines_cons (h : isBreak c = false) :
    lines (c :: cs) =
      match lines cs with
      | [] => [[c]]
      | l :: ls => (c :: l) :: ls := by
  have hr : c ≠ '\r' := by rintro rfl; exact absurd h (by decide)
  rw [lines, linesBy.eq_3 _ _ _ fun _ hc _ => hr hc, h]
  rfl

theorem lines_append_feed (h : ∀ c ∈ l, isBreak c = false) :
    lines (l ++ '\n' :: cs) = l :: lines cs := by
  induction l with
  | nil =>
    rw [List.nil_append, lines, linesBy.eq_3 _ _ _ (by simp)]
    rfl
  | cons c l ih =>
    rw [List.cons_append, lines_cons (h c (by simp)), ih fun d hd => h d (by simp [hd])]

theorem lines_unlines (h : ∀ l ∈ ls, ∀ c ∈ l, isBreak c = false) : lines (unlines ls) = ls := by
  induction ls with
  | nil => rfl
  | cons l ls ih =>
    rw [unlines_cons, lines_append_feed (h l (by simp)), ih fun k hk => h k (by simp [hk])]

theorem lines_of_unbroken (hne : l ≠ []) (h : ∀ c ∈ l, isBreak c = false) : lines l = [l] := by
  induction l with
  | nil => exact absurd rfl hne
  | cons c l ih =>
    rw [lines_cons (h c List.mem_cons_self)]
    cases l with
    | nil => rfl
    | cons d l => rw [ih (List.cons_ne_nil d l) fun e he => h e (List.mem_cons_of_mem _ he)]

theorem isBreak_of_mem_lines (h : l ∈ lines cs) (hc : c ∈ l) : isBreak c = false := by
  unfold lines at h
  fun_induction linesBy isBreak cs generalizing l with
  | case1 => simp at h
  | case2 cs ih =>
    rcases List.mem_cons.mp h with rfl | h
    · simp at hc
    · exact ih h hc
  | case3 d cs _ _ ih =>
    rcases List.mem_cons.mp h with rfl | h
    · simp at hc
    · exact ih h hc
  | case4 d cs _ hd _ _ =>
    obtain rfl : l = [d] := by simpa using h
    obtain rfl : c = d := by simpa using hc
    simpa using hd
  | case5 d cs _ hd k ks hk ih =>
    rw [hk] at ih
    rcases List.mem_cons.mp h with rfl | h
    · rcases List.mem_cons.mp hc with rfl | hc
      · simpa using hd
      · exact ih (by simp) hc
    · exact ih (by simp [h]) hc

structure IsWord (w : List Char) : Prop where
  ne_nil : w ≠ []
  solid : ∀ c ∈ w, isBlank c = false

theorem unbroken_of_isWord {s : String} (h : IsWord s.toList) : unbroken s = true := by
  refine unbroken_iff.mpr fun c hc => ?_
  cases hb : isBreak c with
  | false => rfl
  | true => cases (h.solid c hc).symm.trans (isBlank_of_isBreak hb)

theorem words_of_isWord {w : List Char} (h : IsWord w) : words w = [w] := by
  rw [words, List.splitOnP_eq_singleton h.solid]
  simp [h.ne_nil]

theorem words_append_blank {w : List Char} (h : IsWord w) (hc : isBlank c = true) :
    words (w ++ c :: cs) = w :: words cs := by
  rw [words, List.splitOnP_append_cons_of_forall_mem h.solid c hc, List.filter_cons]
  simp [h.ne_nil, words]

theorem words_intercalate (h : ∀ w ∈ ws, IsWord w) : words ([' '].intercalate ws) = ws := by
  induction ws with
  | nil => rfl
  | cons w ws ih =>
    cases ws with
    | nil => simpa using words_of_isWord (h w (by simp))
    | cons v vs =>
      rw [List.intercalate_cons_cons, List.append_assoc, List.singleton_append,
        words_append_blank (h w (by simp)) (by decide), ih fun u hu => h u (by simp [hu])]

theorem eq_false_of_mem_splitOnP {p : Char → Bool} {w : List Char} (h : w ∈ cs.splitOnP p) :
    ∀ c ∈ w, p c = false := by
  induction cs generalizing w with
  | nil => simp_all [List.splitOnP_nil]
  | cons d cs ih =>
    rw [List.splitOnP_cons_eq_if_modifyHead] at h
    by_cases hd : p d
    · simp only [hd, if_true, List.mem_cons] at h
      rcases h with rfl | h
      · simp
      · exact ih h
    · obtain ⟨v, vs, hv⟩ := List.exists_cons_of_ne_nil (List.splitOnP_ne_nil p cs)
      simp only [hd, Bool.false_eq_true, if_false, hv, List.modifyHead_cons, List.mem_cons] at h
      rcases h with rfl | h
      · intro c hc
        rcases List.mem_cons.mp hc with rfl | hc
        · simpa using hd
        · exact ih (hv ▸ List.mem_cons_self) c hc
      · exact ih (hv ▸ List.mem_cons_of_mem _ h)

theorem mem_of_mem_splitOnP {p : Char → Bool} {w : List Char} (h : w ∈ cs.splitOnP p) (hc : c ∈ w) :
    c ∈ cs := by
  induction cs generalizing w with
  | nil => simp_all [List.splitOnP_nil]
  | cons d cs ih =>
    rw [List.splitOnP_cons_eq_if_modifyHead] at h
    by_cases hd : p d
    · simp only [hd, if_true, List.mem_cons] at h
      rcases h with rfl | h
      · cases hc
      · exact List.mem_cons_of_mem _ (ih h hc)
    · obtain ⟨v, vs, hv⟩ := List.exists_cons_of_ne_nil (List.splitOnP_ne_nil p cs)
      simp only [hd, Bool.false_eq_true, if_false, hv, List.modifyHead_cons, List.mem_cons] at h
      rcases h with rfl | h
      · rcases List.mem_cons.mp hc with rfl | hc
        · exact List.mem_cons_self
        · exact List.mem_cons_of_mem _ (ih (hv ▸ List.mem_cons_self) hc)
      · exact List.mem_cons_of_mem _ (ih (hv ▸ List.mem_cons_of_mem _ h) hc)

theorem mem_of_mem_words {w : List Char} (h : w ∈ words cs) (hc : c ∈ w) : c ∈ cs :=
  mem_of_mem_splitOnP (List.mem_filter.mp h).1 hc

theorem mem_intercalate {sep : List Char} (h : c ∈ sep.intercalate ws) :
    c ∈ sep ∨ ∃ w ∈ ws, c ∈ w := by
  induction ws with
  | nil => cases h
  | cons w ws ih =>
    cases ws with
    | nil => exact .inr ⟨w, List.mem_cons_self, by simpa using h⟩
    | cons v vs =>
      rw [List.intercalate_cons_cons, List.append_assoc, List.mem_append, List.mem_append] at h
      rcases h with h | h | h
      · exact .inr ⟨w, List.mem_cons_self, h⟩
      · exact .inl h
      · exact (ih h).imp_right fun ⟨u, hu, hc⟩ => ⟨u, List.mem_cons_of_mem _ hu, hc⟩

theorem isWord_of_mem_words {w : List Char} (h : w ∈ words cs) : IsWord w := by
  obtain ⟨hw, hne⟩ := List.mem_filter.mp h
  exact ⟨by simpa using hne, eq_false_of_mem_splitOnP hw⟩

end SigmaDesk.Text
