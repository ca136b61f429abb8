import Mathlib.Algebra.BigOperators.Intervals
import SigmaDesk.Proofs.RuleText.Indentation
import SigmaDesk.Proofs.RuleText.Outcome

/-!
# Lines that mean nothing

Blank lines and comments are passed over wherever they stand, and so are blanks at the end of a
line; only the number of the line at which a text is refused counts them.
-/

namespace SigmaDesk.RuleText

variable {s : Scan} {l b : List Char} {ls : List (List Char)} {n : Nat}

/-- A line is blank, or the first of its characters that is not blank is a number sign. -/
def Noise (l : List Char) : Prop := ∀ c ∈ l.find? fun c => !Text.isBlank c, c = '#'

instance (l : List Char) : Decidable (Noise l) :=
  decidable_of_iff ((l.find? fun c => !Text.isBlank c).all (· == '#') = true) <| by
    simp [Noise, Option.all_eq_true]

theorem head?_trim_eq (l : List Char) :
    (Text.trim l).head? = l.find? fun c => !Text.isBlank c := by
  obtain ⟨b, hb, hl⟩ := Text.exists_blanks_of_trimRight l
  have hnone : b.find? (fun c => !Text.isBlank c) = none := by simpa using hb
  have hfind : l.find? (fun c => !Text.isBlank c) =
      (Text.trimRight l).find? fun c => !Text.isBlank c := by
    conv_lhs => rw [← hl]
    rw [List.find?_append, hnone, Option.or_none]
  rw [hfind, List.find?_not_eq_head?_dropWhile]
  rfl

/-- The lines that mean nothing are the ones that the reader skips. -/
theorem ofChars_eq_skipped_iff : RawLine.ofChars l = .skipped ↔ Noise l := by
  have hbody : Text.trimLeft (Text.trimRight l) = Text.trim l := rfl
  rw [Noise, ← head?_trim_eq]
  simp only [RawLine.ofChars, hbody]
  cases Text.trim l with
  | nil => simp
  | cons c cs =>
    by_cases hc : c = '#'
    · simp [hc]
    · simp only [List.isEmpty_cons, List.head?_cons, Bool.false_or]
      rw [if_neg (by simpa using hc)]
      refine iff_of_false ?_ (by simpa using hc)
      split
      · simp
      · split <;> simp

namespace Scan

theorem read_noise (h : Noise l) (s : Scan) : s.read l = .ok s := by
  rw [read, ofChars_eq_skipped_iff.mpr h]

theorem read_append_blanks (hb : ∀ c ∈ b, Text.isBlank c = true) (s : Scan) :
    s.read (l ++ b) = s.read l := by
  have hchars : RawLine.ofChars (l ++ b) = RawLine.ofChars l := by
    rw [RawLine.ofChars, RawLine.ofChars, Text.trimRight_append_blanks hb]
  rw [read, read, hchars]

theorem readAll_noise (h : ∀ l ∈ ls, Noise l) (s : Scan) (n : Nat) (ms : List (List Char)) :
    s.readAll n (ls ++ ms) = s.readAll (n + ls.length) ms := by
  induction ls generalizing n with
  | nil => rfl
  | cons l ls ih =>
    rw [List.cons_append, readAll, read_noise (h l List.mem_cons_self)]
    simp [ih fun k hk => h k (List.mem_cons_of_mem l hk), Nat.add_comm, Nat.add_left_comm]

theorem le_line_of_readAll {e : ParseError} (h : s.readAll n ls = .error e) : n ≤ e.line := by
  obtain ⟨pre, _, _, _, -, hline, -⟩ := refusedWith_of_readAll h
  rw [hline]
  exact Nat.le_add_right n pre.length

end Scan

variable {before : Nat → List (List Char)} {behind : Nat → List Char}

/-- Lines that are counted from `n` on, with others in front of each and behind the last, and with
blanks at their ends. -/
def padded (before : Nat → List (List Char)) (behind : Nat → List Char) (n : Nat) :
    List (List Char) → List (List Char)
  | [] => before n
  | l :: ls => before n ++ (l ++ behind n) :: padded before behind (n + 1) ls

def added (before : Nat → List (List Char)) (m n : Nat) : Nat :=
  ∑ i ∈ Finset.Ico m (n + 1), (before i).length

theorem added_first {m : Nat} (h : m ≤ n) (before : Nat → List (List Char)) :
    added before m n = (before m).length + added before (m + 1) n :=
  Finset.sum_eq_sum_Ico_succ_bot (Nat.lt_succ_of_le h) _

def moved (before : Nat → List (List Char)) (m : Nat) (e : ParseError) : ParseError :=
  { e with line := e.line + added before m e.line }

theorem readAll_padded (hbefore : ∀ n, ∀ l ∈ before n, Noise l)
    (hbehind : ∀ n, ∀ c ∈ behind n, Text.isBlank c = true) (s : Scan) (n : Nat)
    (ls : List (List Char)) :
    s.readAll n (padded before behind n ls) = (s.readAll n ls).mapError (moved before n) := by
  induction ls generalizing s n with
  | nil =>
    have hnoise := Scan.readAll_noise (hbefore n) s n []
    rw [List.append_nil] at hnoise
    exact hnoise
  | cons l ls ih =>
    rw [padded, Scan.readAll_noise (hbefore n), Scan.readAll, Scan.readAll,
      Scan.read_append_blanks (hbehind n)]
    cases s.read l with
    | error reason =>
      have hself : added before n n = (before n).length := by simp [added]
      simp [Except.mapError, moved, hself]
    | ok t =>
      -- The rest is counted from a later line by as many as stand in front of this one.
      have hmove : n + (before n).length + 1 = n + 1 + (before n).length :=
        Nat.add_right_comm n _ 1
      dsimp only
      rw [hmove, Scan.readAll_add, ih]
      cases hread : t.readAll (n + 1) ls with
      | ok u => rfl
      | error e =>
        have hle : n ≤ e.line := Nat.le_of_succ_le (Scan.le_line_of_readAll hread)
        have hline : e.line + added before (n + 1) e.line + (before n).length =
            e.line + added before n e.line := by
          rw [added_first hle]
          omega
        simp only [Except.mapError, moved, hline]

/-- Blank lines and comments may be added in front of any line and behind the last, and blanks at
the end of any line: the text reads as the same record, or is refused for the same reason at the
same line, whose number counts the lines that are added in front of it. -/
theorem parse_padded {text text' : String} (hbefore : ∀ n, ∀ l ∈ before n, Noise l)
    (hbehind : ∀ n, ∀ c ∈ behind n, Text.isBlank c = true)
    (hlines : Text.lines text'.toList = padded before behind 1 (Text.lines text.toList)) :
    parse text' = (parse text).mapError (moved before 1) ∧
      parseDetection text' = (parseDetection text).mapError (moved before 1) := by
  have hrun (s : Scan) := readAll_padded hbefore hbehind s 1 (Text.lines text.toList)
  constructor
  · rw [parse_eq_map, parse_eq_map, hlines, hrun, map_mapError]
  · rw [parseDetection_eq_map, parseDetection_eq_map, hlines, hrun, map_mapError]

def paddedText (before : Nat → List (List Char)) (behind : Nat → List Char) (text : String) :
    String :=
  String.ofList (Text.unlines (padded before behind 1 (Text.lines text.toList)))

theorem lines_paddedText (hbefore : ∀ n, ∀ l ∈ before n, ∀ c ∈ l, Text.isBreak c = false)
    (hbehind : ∀ n, ∀ c ∈ behind n, Text.isBreak c = false) (text : String) :
    Text.lines (paddedText before behind text).toList =
      padded before behind 1 (Text.lines text.toList) := by
  have hpadded (ls : List (List Char)) (n : Nat) (hls : ∀ l ∈ ls, ∀ c ∈ l, Text.isBreak c = false) :
      ∀ l ∈ padded before behind n ls, ∀ c ∈ l, Text.isBreak c = false := by
    induction ls generalizing n with
    | nil => exact hbefore n
    | cons l ls ih =>
      obtain ⟨hl, hls⟩ := List.forall_mem_cons.mp hls
      have hends : ∀ c ∈ l ++ behind n, Text.isBreak c = false :=
        List.forall_mem_append.mpr ⟨hl, hbehind n⟩
      exact List.forall_mem_append.mpr
        ⟨hbefore n, List.forall_mem_cons.mpr ⟨hends, ih (n + 1) hls⟩⟩
  rw [paddedText, String.toList_ofList]
  exact Text.lines_unlines (hpadded _ 1 fun l hl c hc => Text.isBreak_of_mem_lines hl hc)

def listedText : String :=
  "---\ntitle: a\ntags:\n  - x\n  - y\ndetection:\n  sel:\n    Image: x\n  condition: sel\n"

def remarks : Nat → List (List Char)
  | 1 => ["".toList, "# a rule".toList]
  | 5 => ["    # two tags".toList]
  | 8 => ["\t ".toList, "# its field".toList]
  | _ => []

def trailing : Nat → List Char := fun _ => [' ', '\t']

theorem parse_padded_remarks :
    parse (paddedText remarks trailing listedText) =
      .ok { ({} : Record) with
        name := "a"
        tags := ["x", "y"]
        selections := [⟨"sel", "Image", none, .one "x"⟩]
        condition := ⟨["sel"]⟩ } ∧
    parse (paddedText remarks trailing (listedText ++ "  condition: sel")) =
      .error ⟨15, .duplicateKey "condition"⟩ := by
  have hremarks (n : Nat) : ∀ l ∈ remarks n, Noise l ∧ l.all (!Text.isBreak ·) = true := by
    unfold remarks
    split <;> decide +kernel
  have hblank : ∀ c ∈ [' ', '\t'], Text.isBlank c = true ∧ Text.isBreak c = false := by
    intro c hc
    rcases List.mem_pair.mp hc with rfl | rfl <;> decide
  have hlines : ∀ text, Text.lines (paddedText remarks trailing text).toList =
      padded remarks trailing 1 (Text.lines text.toList) :=
    lines_paddedText (fun n l hl => by simpa using (hremarks n l hl).2) fun _ c hc =>
      (hblank c hc).2
  have hparse (text : String) := (parse_padded (fun n l hl => (hremarks n l hl).1)
    (fun _ c hc => (hblank c hc).1) (hlines text)).1
  rw [hparse, hparse]
  exact ⟨by decide +kernel, by decide +kernel⟩

end SigmaDesk.RuleText
