import Mathlib.Order.Monotone.Basic
import Mathlib.Order.Nat
import SigmaDesk.Proofs.RuleText.Indentation

/-!
# Respaced text

A text whose lines are given other indentations in the same order is read as before. But a line of
spaces alone can lose them all, and a carriage return and a line feed around it are one end of a
line from then on.
-/

namespace SigmaDesk

namespace Text

variable {c : Char} {cs l : List Char}

-- ---------------------------------------------------------------------------
-- Lines with their ends
-- ---------------------------------------------------------------------------

structure Row where
  line : List Char
  ending : List Char
deriving DecidableEq, Repr

def rows : List Char → List Row
  | [] => []
  | '\r' :: '\n' :: cs => ⟨[], ['\r', '\n']⟩ :: rows cs
  | c :: cs =>
    if isBreak c then ⟨[], [c]⟩ :: rows cs
    else
      match rows cs with
      | [] => [⟨[c], []⟩]
      | r :: rs => { r with line := c :: r.line } :: rs

theorem map_line_rows (cs : List Char) : (rows cs).map Row.line = lines cs := by
  unfold lines
  fun_induction rows cs with
  | case1 => rfl
  | case2 cs ih => rw [List.map_cons, ih, linesBy]
  | case3 c cs hpair hc ih => rw [List.map_cons, ih, linesBy.eq_3 _ _ _ hpair, if_pos hc]
  | case4 c cs hpair hc hnil ih =>
    rw [hnil, List.map_nil] at ih
    rw [linesBy.eq_3 _ _ _ hpair, if_neg hc, ← ih]
    rfl
  | case5 c cs hpair hc r rs hcons ih =>
    rw [hcons, List.map_cons] at ih
    rw [linesBy.eq_3 _ _ _ hpair, if_neg hc, ← ih]
    rfl

theorem flatMap_rows (cs : List Char) : (rows cs).flatMap (fun r => r.line ++ r.ending) = cs := by
  fun_induction rows cs with
  | case1 => rfl
  | case2 cs ih => rw [List.flatMap_cons, ih]; rfl
  | case3 c cs hpair hc ih => rw [List.flatMap_cons, ih]; rfl
  | case4 c cs hpair hc hnil ih =>
    rw [hnil] at ih
    rw [← ih]
    rfl
  | case5 c cs hpair hc r rs hcons ih =>
    rw [hcons] at ih
    rw [← ih]
    rfl

/-- Lines that nothing breaks, each but the last with an end. -/
inductive Ended : List Row → Prop
  | nil : Ended []
  | last {l : List Char} (hl : ∀ c ∈ l, isBreak c = false) : Ended [⟨l, []⟩]
  | single {l : List Char} {c : Char} {rs : List Row} (hl : ∀ c ∈ l, isBreak c = false)
    (hc : isBreak c = true) (h : Ended rs) : Ended (⟨l, [c]⟩ :: rs)
  | pair {l : List Char} {rs : List Row} (hl : ∀ c ∈ l, isBreak c = false) (h : Ended rs) :
    Ended (⟨l, ['\r', '\n']⟩ :: rs)

theorem ended_rows (cs : List Char) : Ended (rows cs) := by
  fun_induction rows cs with
  | case1 => exact .nil
  | case2 cs ih => exact .pair nofun ih
  | case3 c cs hpair hc ih => exact .single nofun hc ih
  | case4 c cs hpair hc hnil ih =>
    refine .last fun d hd => ?_
    obtain rfl := List.mem_singleton.mp hd
    simpa using hc
  | case5 c cs hpair hc r rs hcons ih =>
    rw [hcons] at ih
    have hline {l : List Char} (hl : ∀ d ∈ l, isBreak d = false) :
        ∀ d ∈ c :: l, isBreak d = false := by
      refine List.forall_mem_cons.mpr ⟨?_, hl⟩
      simpa using hc
    cases ih with
    | last hl => exact .last (hline hl)
    | single hl hd h => exact .single (hline hl) hd h
    | pair hl h => exact .pair (hline hl) h

/-- Nowhere does an empty line stand between a carriage return and a line feed: the two would be one
end. `cr` says whether a carriage return stands in front. -/
def Apart (cr : Bool) : List Row → Prop
  | [] => True
  | r :: rs => (cr = true → r.line = [] → r.ending ≠ ['\n']) ∧ Apart (r.ending == ['\r']) rs

theorem apart_rows (cs : List Char) :
    Apart false (rows cs) ∧ (cs.head? ≠ some '\n' → Apart true (rows cs)) := by
  fun_induction rows cs with
  | case1 => exact ⟨trivial, fun _ => trivial⟩
  | case2 cs ih => exact ⟨⟨nofun, ih.1⟩, fun _ => ⟨by simp, ih.1⟩⟩
  | case3 c cs hpair hc ih =>
    have hrest : Apart (c == '\r') (rows cs) := by
      by_cases hreturn : c = '\r'
      · rw [beq_iff_eq.mpr hreturn]
        refine ih.2 fun hfeed => ?_
        obtain ⟨ds, rfl⟩ := List.head?_eq_some_iff.mp hfeed
        exact hpair ds hreturn rfl
      · rw [beq_eq_false_iff_ne.mpr hreturn]
        exact ih.1
    have hrest' : Apart ([c] == ['\r']) (rows cs) := by simpa using hrest
    refine ⟨⟨nofun, hrest'⟩, fun hfeed => ⟨fun _ _ hending => ?_, hrest'⟩⟩
    exact hfeed (congrArg some (List.head_eq_of_cons_eq hending))
  | case4 c cs hpair hc hnil ih => exact ⟨⟨nofun, trivial⟩, fun _ => ⟨by simp, trivial⟩⟩
  | case5 c cs hpair hc r rs hcons ih =>
    rw [hcons] at ih
    exact ⟨⟨nofun, ih.1.2⟩, fun _ => ⟨by simp, ih.1.2⟩⟩

theorem lines_append_break (hl : ∀ d ∈ l, isBreak d = false) (hc : isBreak c = true)
    (h : c = '\r' → cs.head? ≠ some '\n') : lines (l ++ c :: cs) = l :: lines cs := by
  induction l with
  | nil =>
    have hpair : ∀ ds, c = '\r' → cs = '\n' :: ds → False := by
      rintro ds hr rfl
      exact h hr rfl
    rw [List.nil_append, lines, linesBy.eq_3 _ _ _ hpair, if_pos hc]
    rfl
  | cons d l ih =>
    rw [List.cons_append, lines_cons (hl d List.mem_cons_self),
      ih fun e he => hl e (List.mem_cons_of_mem _ he)]

theorem lines_append_pair (hl : ∀ d ∈ l, isBreak d = false) :
    lines (l ++ '\r' :: '\n' :: cs) = l :: lines cs := by
  induction l with
  | nil => rw [List.nil_append, lines, linesBy]; rfl
  | cons d l ih =>
    rw [List.cons_append, lines_cons (hl d List.mem_cons_self),
      ih fun e he => hl e (List.mem_cons_of_mem _ he)]

end Text

namespace RuleText

open Text (Row rows isBreak)

variable {f : Nat → Nat} {text : String} {s : Scan} {cr : Bool} {l : List Char}
  {ls ms : List (List Char)} {r : Row} {rs : List Row}

-- ---------------------------------------------------------------------------
-- Other indentations
-- ---------------------------------------------------------------------------

/-- A line with `f k` spaces in front of it in place of `k`. -/
def respace (f : Nat → Nat) (l : List Char) : List Char :=
  List.replicate (f (width l)) ' ' ++ unindented l

def respacedRows (f : Nat → Nat) (rs : List Row) : List Char :=
  rs.flatMap fun r => respace f r.line ++ r.ending

theorem respacedRows_cons (r : Row) (rs : List Row) :
    respacedRows f (r :: rs) = respace f r.line ++ (r.ending ++ respacedRows f rs) := by
  rw [respacedRows, List.flatMap_cons, List.append_assoc]
  rfl

/-- A text with `f k` spaces in place of `k` in front of each line. -/
def respaced (f : Nat → Nat) (text : String) : String :=
  String.ofList (respacedRows f (rows text.toList))

theorem isBreak_of_mem_respace (hl : ∀ c ∈ l, isBreak c = false) :
    ∀ c ∈ respace f l, isBreak c = false := by
  intro c hc
  rcases List.mem_append.mp hc with hc | hc
  · obtain rfl := List.eq_of_mem_replicate hc
    rfl
  · exact hl c ((List.dropWhile_suffix _).subset hc)

theorem eq_nil_of_respace (hf : 0 < width l → 0 < f (width l)) (h : respace f l = []) : l = [] := by
  obtain ⟨hspaces, hrest⟩ := List.append_eq_nil_iff.mp h
  have hwidth : f (width l) = 0 := (List.replicate_eq_nil_iff _).mp hspaces
  have hzero : width l = 0 := by omega
  rw [← spaces_append_unindented l, hrest, hzero]
  rfl

def widths (text : String) : Set Nat := {k | ∃ l ∈ Text.lines text.toList, width l = k}

-- ---------------------------------------------------------------------------
-- Lost lines
-- ---------------------------------------------------------------------------

/-- Whether a line is lost between the end of the line before it, which is a carriage return or
not, and its own: nothing is left of it, and the two ends become one. -/
def merges (f : Nat → Nat) (cr : Bool) (r : Row) : Bool :=
  cr && (respace f r.line).isEmpty && r.ending == ['\n']

theorem merges_iff :
    merges f cr r = true ↔ cr = true ∧ respace f r.line = [] ∧ r.ending = ['\n'] := by
  simp [merges, and_assoc]

def losses (f : Nat → Nat) (cr : Bool) : List Row → List Bool
  | [] => []
  | r :: rs => merges f cr r :: losses f (r.ending == ['\r']) rs

def kept (f : Nat → Nat) (cr : Bool) : List Row → List (List Char)
  | [] => []
  | r :: rs =>
    if merges f cr r then kept f (r.ending == ['\r']) rs
    else respace f r.line :: kept f (r.ending == ['\r']) rs

def lostBefore (f : Nat → Nat) (text : String) (n : Nat) : Nat :=
  ((losses f false (rows text.toList)).take (n - 1)).count true

def renumber (f : Nat → Nat) (text : String) (e : ParseError) : ParseError :=
  { e with line := e.line - lostBefore f text e.line }

theorem not_mem_losses (h : Text.Apart cr rs)
    (hf : ∀ r ∈ rs, respace f r.line = [] → r.line = []) : true ∉ losses f cr rs := by
  induction rs generalizing cr with
  | nil => exact List.not_mem_nil
  | cons r rs ih =>
    rw [losses, List.mem_cons, not_or]
    refine ⟨fun hmerge => ?_, ih h.2 fun r hr => hf r (List.mem_cons_of_mem _ hr)⟩
    obtain ⟨hcr, hnil, hending⟩ := merges_iff.mp hmerge.symm
    exact h.1 hcr (hf r List.mem_cons_self hnil) hending

theorem renumber_eq_self (hf : ∀ k ∈ widths text, 0 < k → 0 < f k) (e : ParseError) :
    renumber f text e = e := by
  have hlosses : true ∉ losses f false (rows text.toList) := by
    refine not_mem_losses (Text.apart_rows text.toList).1 fun r hr => eq_nil_of_respace ?_
    exact hf _ ⟨r.line, Text.map_line_rows text.toList ▸ List.mem_map_of_mem hr, rfl⟩
  have hlost : lostBefore f text e.line = 0 :=
    List.count_eq_zero.mpr fun h => hlosses (List.mem_of_mem_take h)
  rw [renumber, hlost]
  rfl

-- ---------------------------------------------------------------------------
-- The lines of the respaced text
-- ---------------------------------------------------------------------------

/-- Lines that a reader takes alike, whatever it has read before. -/
def ReadsAs (ls ms : List (List Char)) : Prop :=
  ∀ (s : Scan) (n : Nat), s.readAll n ls = s.readAll n ms

theorem ReadsAs.cons (h : ReadsAs ls ms) (l : List Char) : ReadsAs (l :: ls) (l :: ms) := by
  intro s n
  rw [Scan.readAll, Scan.readAll]
  cases s.read l with
  | error reason => rfl
  | ok t => exact h t (n + 1)

theorem readsAs_unbroken (hl : ∀ c ∈ l, isBreak c = false) : ReadsAs (Text.lines l) [l] := by
  intro s n
  by_cases hnil : l = []
  · subst hnil
    rfl
  · rw [Text.lines_of_unbroken hnil hl]

theorem kept_return (h : ¬merges f true r = true) (rs : List Row) :
    kept f true (r :: rs) = kept f false (r :: rs) := by
  have hfalse : ¬merges f false r = true := by simp [merges]
  rw [kept, kept, if_neg h, if_neg hfalse]

theorem head?_respace_append (hr : ∀ c ∈ r.line, isBreak c = false) {cs : List Char}
    (h : (respace f r.line ++ cs).head? = some '\n') :
    respace f r.line = [] ∧ cs.head? = some '\n' := by
  cases hline : respace f r.line with
  | nil => exact ⟨rfl, by rwa [hline] at h⟩
  | cons c ds =>
    have hc : isBreak c = false := isBreak_of_mem_respace (f := f) hr c (hline ▸ List.mem_cons_self)
    rw [hline] at h
    obtain rfl : c = '\n' := Option.some.inj h
    cases hc

theorem ReadsAs.after_return (h : ReadsAs (Text.lines (respacedRows f (r :: rs)))
      (kept f false (r :: rs)))
    (hl : ∀ c ∈ l, isBreak c = false) (hr : ∀ c ∈ r.line, isBreak c = false)
    (hmerge : ¬merges f true r = true)
    (hending : (r.ending ++ respacedRows f rs).head? = some '\n' → r.ending = ['\n']) :
    ReadsAs (Text.lines (l ++ '\r' :: respacedRows f (r :: rs))) (l :: kept f true (r :: rs)) := by
  have hhead : (respacedRows f (r :: rs)).head? ≠ some '\n' := by
    intro hhead
    rw [respacedRows_cons] at hhead
    obtain ⟨hnil, hfeed⟩ := head?_respace_append hr hhead
    exact hmerge (merges_iff.mpr ⟨rfl, hnil, hending hfeed⟩)
  rw [Text.lines_append_break hl rfl fun _ => hhead, kept_return hmerge]
  exact h.cons l

/-- The reader goes over the respaced text as over the lines that are not lost, also where the text
stands behind a line that a carriage return ends. -/
theorem readsAs_respacedRows (f : Nat → Nat) (h : Text.Ended rs) :
    ReadsAs (Text.lines (respacedRows f rs)) (kept f false rs) ∧
    ∀ l, (∀ c ∈ l, isBreak c = false) →
      ReadsAs (Text.lines (l ++ '\r' :: respacedRows f rs)) (l :: kept f true rs) := by
  -- What follows a line is read behind its end, so the two parts are shown together.
  induction h with
  | nil =>
    refine ⟨fun s n => rfl, fun l hl s n => ?_⟩
    rw [respacedRows, List.flatMap_nil, Text.lines_append_break hl rfl (by simp)]
    rfl
  | @last k hk =>
    have hlines : ReadsAs (Text.lines (respacedRows f [⟨k, []⟩])) (kept f false [⟨k, []⟩]) := by
      simpa [respacedRows, kept, merges] using readsAs_unbroken (isBreak_of_mem_respace hk)
    refine ⟨hlines, fun l hl => hlines.after_return hl hk ?_ nofun⟩
    simp [merges]
  | @single k c rs hk hc h ih =>
    have hkept : kept f false (⟨k, [c]⟩ :: rs) = respace f k :: kept f (c == '\r') rs := by
      simp [kept, merges]
    have hlines : ReadsAs (Text.lines (respacedRows f (⟨k, [c]⟩ :: rs)))
        (kept f false (⟨k, [c]⟩ :: rs)) := by
      rw [respacedRows_cons, hkept]
      by_cases hreturn : c = '\r'
      · subst hreturn
        exact ih.2 _ (isBreak_of_mem_respace hk)
      · rw [List.singleton_append,
          Text.lines_append_break (isBreak_of_mem_respace hk) hc fun h => absurd h hreturn,
          beq_eq_false_iff_ne.mpr hreturn]
        exact ih.1.cons _
    refine ⟨hlines, fun l hl => ?_⟩
    by_cases hmerge : merges f true ⟨k, [c]⟩ = true
    · obtain ⟨-, hnil, hfeed⟩ := merges_iff.mp hmerge
      obtain rfl : c = '\n' := List.head_eq_of_cons_eq hfeed
      rw [respacedRows_cons, hnil, List.nil_append, List.singleton_append,
        Text.lines_append_pair hl, kept, if_pos hmerge]
      exact ih.1.cons l
    · refine hlines.after_return hl hk hmerge fun hhead => ?_
      obtain rfl : c = '\n' := Option.some.inj hhead
      rfl
  | @pair k rs hk h ih =>
    have hlines : ReadsAs (Text.lines (respacedRows f (⟨k, ['\r', '\n']⟩ :: rs)))
        (kept f false (⟨k, ['\r', '\n']⟩ :: rs)) := by
      have hkept : kept f false (⟨k, ['\r', '\n']⟩ :: rs) = respace f k :: kept f false rs := by
        simp [kept, merges]
      rw [respacedRows_cons, hkept]
      show ReadsAs (Text.lines (respace f k ++ '\r' :: '\n' :: respacedRows f rs)) _
      rw [Text.lines_append_pair (isBreak_of_mem_respace hk)]
      exact ih.1.cons _
    refine ⟨hlines, fun l hl => hlines.after_return hl hk ?_ nofun⟩
    simp [merges]

-- ---------------------------------------------------------------------------
-- Numbers of lines
-- ---------------------------------------------------------------------------

theorem count_take_losses_le (f : Nat → Nat) (cr : Bool) (rs : List Row) (k : Nat) :
    ((losses f cr rs).take k).count true ≤ k :=
  List.count_le_length.trans (List.length_take_le k _)

theorem mapError_mapError {ε α : Type} (x : Except ε α) (g g' : ε → ε) :
    (x.mapError g).mapError g' = x.mapError (g' ∘ g) := by
  cases x <;> rfl

/-- A line that is lost means nothing, so over the lines that are kept an error is found as over all
of them, and its number is lower by the lines that are lost before it. -/
theorem readAll_kept (s : Scan) (cr : Bool) (rs : List Row) :
    s.readAll 0 (kept f cr rs) =
      (s.readAll 0 (rs.map fun r => respace f r.line)).mapError fun e =>
        { e with line := e.line - ((losses f cr rs).take e.line).count true } := by
  -- Counted from 0 on, the number of a line is that of the lines before it.
  induction rs generalizing s cr with
  | nil => rfl
  | cons r rs ih =>
    have hlosses (k : Nat) : ((losses f cr (r :: rs)).take (k + 1)).count true =
        ((losses f (r.ending == ['\r']) rs).take k).count true + (merges f cr r).toNat := by
      rw [losses, List.take_succ_cons, List.count_cons]
      cases merges f cr r <;> rfl
    rw [kept, List.map_cons, Scan.readAll]
    by_cases hmerge : merges f cr r = true
    · obtain ⟨-, hnil, -⟩ := merges_iff.mp hmerge
      have hread : s.read [] = .ok s := rfl
      rw [if_pos hmerge, ih, hnil, hread]
      dsimp only
      rw [Scan.readAll_add s 1 0, mapError_mapError]
      congr 1
      funext e
      simp only [Function.comp, hlosses, hmerge, Bool.toNat_true, Nat.add_sub_add_right]
    · rw [if_neg hmerge, Scan.readAll]
      cases s.read (respace f r.line) with
      | error reason => rfl
      | ok t =>
        dsimp only
        rw [Scan.readAll_add t 1 0, Scan.readAll_add t 1 0, ih, mapError_mapError,
          mapError_mapError]
        congr 1
        funext e
        have hle := count_take_losses_le f (r.ending == ['\r']) rs e.line
        have hfalse : merges f cr r = false := by simpa using hmerge
        simp only [Function.comp, hlosses, hfalse, Bool.toNat_false, Nat.add_zero,
          Nat.sub_add_comm hle]

theorem readAll_lines_respaced (s : Scan) (f : Nat → Nat) (text : String) :
    s.readAll 1 (Text.lines (respaced f text).toList) =
      (s.readAll 1 ((Text.lines text.toList).map (respace f))).mapError (renumber f text) := by
  have hlines : (rows text.toList).map (fun r => respace f r.line) =
      (Text.lines text.toList).map (respace f) := by
    rw [← Text.map_line_rows, List.map_map]
    rfl
  have hrows := (readsAs_respacedRows f (Text.ended_rows text.toList)).1 s (0 + 1)
  rw [respaced, String.toList_ofList]
  refine hrows.trans ?_
  rw [Scan.readAll_add s 1 0, Scan.readAll_add s 1 0, readAll_kept, hlines, mapError_mapError,
    mapError_mapError]
  congr 1
  funext e
  have hle := count_take_losses_le f false (rows text.toList) e.line
  simp only [Function.comp, renumber, lostBefore, Nat.add_sub_cancel, Nat.sub_add_comm hle]

-- ---------------------------------------------------------------------------
-- Texts
-- ---------------------------------------------------------------------------

def Respaced (f : Nat → Nat) (text : String) (i j : Nat) : Prop := i ∈ widths text ∧ j = f i

theorem sameOrder_respaced (hf : StrictMonoOn f (widths text)) : SameOrder (Respaced f text) := by
  rintro i i' j j' ⟨hi, rfl⟩ ⟨hj, rfl⟩
  exact (hf.lt_iff_lt hi hj).symm

theorem alike_respace (hl : l ∈ Text.lines text.toList)
    (htab : (unindented l).head? ≠ some '\t') :
    RawLine.Alike (Respaced f text) (.ofChars l) (.ofChars (respace f l)) := by
  have hfront (k : Nat) : (List.replicate k ' ' ++ unindented l).head? ≠ some '\t' := by
    cases k with
    | zero => exact htab
    | succ k => simp [List.replicate_succ]
  have hwidth : Respaced f text (width l) (f (width l)) := ⟨⟨l, hl, rfl⟩, rfl⟩
  have hchars := ofChars_indented (head?_unindented l) (hfront (width l))
  rw [spaces_append_unindented] at hchars
  rw [hchars, respace, ofChars_indented (head?_unindented l) (hfront (f (width l)))]
  exact RawLine.alike_ofBody hwidth _

/-- From states that are alike, the reader ends alike over a text and over the text respaced, up to
the number of the line that is refused. -/
theorem readAll_respaced {t : Scan}
    (h : Scan.Alike (Respaced f text) (Outer.Alike (Respaced f text)) s t)
    (htab : ∀ l ∈ Text.lines text.toList, (unindented l).head? ≠ some '\t')
    (hf : StrictMonoOn f (widths text)) :
    Agree (Scan.Alike (Respaced f text) (Outer.Alike (Respaced f text)))
      ((s.readAll 1 (Text.lines text.toList)).mapError (renumber f text))
      (t.readAll 1 (Text.lines (respaced f text).toList)) := by
  have hpairs : List.Forall₂ (fun l l' => l' = respace f l ∧ l ∈ Text.lines text.toList)
      (Text.lines text.toList) ((Text.lines text.toList).map (respace f)) :=
    List.forall₂_map_right_iff.mpr (List.forall₂_same.mpr fun l hl => ⟨rfl, hl⟩)
  have hrun : Agree (Scan.Alike (Respaced f text) (Outer.Alike (Respaced f text)))
      (s.readAll 1 (Text.lines text.toList))
      (t.readAll 1 ((Text.lines text.toList).map (respace f))) := by
    refine Scan.readAll_agree (fun s t l l' h hl => ?_) h hpairs 1
    obtain ⟨rfl, hl⟩ := hl
    exact h.read (sameOrder_respaced hf) (alike_respace hl (htab l hl))
  rw [readAll_lines_respaced]
  exact hrun.mapError (renumber f text)

/-- Only the order of indentations matters. A text that is respaced in the same order reads as the
same record or is refused for the same reason on the same line, the lines that are lost not counted.
So does a detection block that stands alone. Where no indentation is lost, all lines are counted. -/
theorem parse_respaced
    (htab : ∀ l ∈ Text.lines text.toList, (unindented l).head? ≠ some '\t')
    (hf : StrictMonoOn f (widths text)) :
    parse (respaced f text) = (parse text).mapError (renumber f text) ∧
    parseDetection (respaced f text) = (parseDetection text).mapError (renumber f text) ∧
    ((∀ k ∈ widths text, 0 < k → 0 < f k) → ∀ e, renumber f text e = e) := by
  have hstart : Scan.Alike (Respaced f text) (Outer.Alike (Respaced f text)) Scan.start Scan.start :=
    ⟨rfl, rfl, rfl, .none, rfl, .none, .none⟩
  have hblock : Block.Alike (Respaced f text) { kind := .detection, header := none }
      { kind := .detection, header := none } :=
    ⟨rfl, fun _ _ _ => rfl, fun _ _ _ => rfl, .none⟩
  have hdetection : Scan.Alike (Respaced f text) (Outer.Alike (Respaced f text))
      Scan.startDetection Scan.startDetection :=
    ⟨rfl, rfl, rfl, .none, rfl, .none, .some hblock⟩
  have hrecord (s t : Scan)
      (h : Scan.Alike (Respaced f text) (Outer.Alike (Respaced f text)) s t) :
      s.close.record = t.close.record := h.close.record.symm
  refine ⟨?_, ?_, renumber_eq_self⟩
  · rw [parse_eq_map, parse_eq_map, ← map_mapError]
    exact ((readAll_respaced hstart htab hf).map_eq hrecord).symm
  · rw [parseDetection_eq_map, parseDetection_eq_map, ← map_mapError]
    refine ((readAll_respaced hdetection htab hf).map_eq fun s t h => ?_).symm
    rw [hrecord s t h]

def nestedText : String :=
  "title: a\nlogsource:\n product: windows\n\ndetection:\n  sel:\n     Image: x\n  condition: sel"

theorem parse_respaced_nestedText :
    StrictMonoOn (3 * · + 1) (widths nestedText) ∧
    parse (respaced (3 * · + 1) nestedText) =
      .ok { ({} : Record) with
        name := "a"
        logType := "windows"
        selections := [⟨"sel", "Image", none, .one "x"⟩]
        condition := ⟨["sel"]⟩ } ∧
    parseDetection (respaced (3 * · + 1) nestedText) = .error ⟨1, .selectionWithValue "title"⟩ := by
  have hf : StrictMonoOn (3 * · + 1) (widths nestedText) := by
    intro i _ j _ h
    show 3 * i + 1 < 3 * j + 1
    omega
  obtain ⟨hparse, hdetection, hnumber⟩ := parse_respaced (by decide +kernel) hf
  refine ⟨hf, hparse.trans ?_, hdetection.trans ?_⟩
  · decide +kernel
  · have halone : parseDetection nestedText = .error ⟨1, .selectionWithValue "title"⟩ := by
      decide +kernel
    rw [halone]
    refine congrArg Except.error (hnumber ?_ _)
    intro k _ hk
    omega

def brokenText : String := " title: a\r \n title: b"

/-- A line of one space between a carriage return and a line feed is lost without its space, and
what is refused is then on a line before. -/
theorem parse_respaced_brokenText :
    (∀ l ∈ Text.lines brokenText.toList, (unindented l).head? ≠ some '\t') ∧
    StrictMonoOn (· - 1) (widths brokenText) ∧
    parse brokenText = .error ⟨3, .duplicateKey "title"⟩ ∧
    parse (respaced (· - 1) brokenText) = .error ⟨2, .duplicateKey "title"⟩ := by
  have hwidth : ∀ l ∈ Text.lines brokenText.toList, width l = 1 := by decide +kernel
  refine ⟨by decide +kernel, ?_, by decide +kernel, by decide +kernel⟩
  rintro _ ⟨l, hl, rfl⟩ _ ⟨m, hm, rfl⟩ h
  rw [hwidth l hl, hwidth m hm] at h
  exact absurd h (Nat.lt_irrefl 1)

end RuleText

end SigmaDesk
