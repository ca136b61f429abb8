import SigmaDesk.Proofs.RuleText.Noise

/-!
# The first line that no rule can have

An error tells the first bad line: the lines before it are read by themselves, and what follows it
does not matter.
-/

namespace SigmaDesk.RuleText

variable {α : Type} {s : Scan} {pre post raws : List (List Char)} {n : Nat} {e : ParseError}

theorem Scan.readAll_append (s : Scan) (n : Nat) (pre post : List (List Char)) :
    s.readAll n (pre ++ post) = s.readAll n pre >>= fun t => t.readAll (n + pre.length) post := by
  induction pre generalizing s n with
  | nil => rfl
  | cons raw pre ih =>
    rw [List.cons_append, readAll, readAll]
    cases s.read raw with
    | error reason => rfl
    | ok t => simp [ih, Nat.add_comm, Nat.add_left_comm]

theorem readAll_eq_error_iff : s.readAll n raws = .error e ↔ RefusedWith s n raws e := by
  refine ⟨refusedWith_of_readAll, ?_⟩
  rintro ⟨pre, raw, post, t, rfl, hline, hpre, hraw⟩
  rw [Scan.readAll_append, hpre]
  simp only [bind, Except.bind, Scan.readAll, hraw, ← hline]

theorem exists_readAll_of_prefix {t : Scan} (h : s.readAll n raws = .ok t) (hp : pre <+: raws) :
    ∃ u, s.readAll n pre = .ok u := by
  obtain ⟨post, rfl⟩ := hp
  rw [Scan.readAll_append] at h
  obtain ⟨u, hu, -⟩ := bind_ok.mp h
  exact ⟨u, hu⟩

/-- What an error says of a text: its line is one that means something, a text of the lines before
it is read, and a text that begins with the same lines up to it has the same error. -/
structure FirstFault (read : String → Except ParseError α) (text : String) (e : ParseError) :
    Prop where
  inside : 1 ≤ e.line ∧ e.line ≤ (Text.lines text.toList).length
  meant : ∀ l, (Text.lines text.toList)[e.line - 1]? = some l → ¬Noise l
  before : ∀ t : String, Text.lines t.toList = (Text.lines text.toList).take (e.line - 1) →
    ∃ a, read t = .ok a
  decided : ∀ t : String, (Text.lines t.toList).take e.line =
    (Text.lines text.toList).take e.line → read t = .error e

/-- A reader that takes a text line by line: what it refuses has a first fault, and what it reads
can be cut off after any line. -/
structure JudgesInOrder (read : String → Except ParseError α) : Prop where
  refused : ∀ text e, read text = .error e → FirstFault read text e
  accepted : ∀ text a, read text = .ok a → ∀ t : String,
    Text.lines t.toList <+: Text.lines text.toList → ∃ b, read t = .ok b

theorem map_eq_error {x : Except ParseError Scan} {g : Scan → α} :
    x.map g = .error e ↔ x = .error e := by
  cases x <;> simp [Except.map]

theorem map_eq_ok {x : Except ParseError Scan} {g : Scan → α} {a : α} :
    x.map g = .ok a ↔ ∃ t, x = .ok t ∧ g t = a := by
  cases x <;> simp [Except.map]

theorem firstFault_of_refusedWith {text : String} (g : Scan → α)
    (h : RefusedWith s 1 (Text.lines text.toList) e) :
    FirstFault (fun t => (s.readAll 1 (Text.lines t.toList)).map g) text e := by
  obtain ⟨pre, raw, post, u, hlines, hline, hpre, hraw⟩ := h
  have hbefore : e.line - 1 = pre.length := by omega
  have hupTo : (Text.lines text.toList).take e.line = pre ++ [raw] := by
    rw [hlines, hline, Nat.add_comm]
    simp [List.take_append]
  constructor
  · rw [hlines, hline, List.length_append, List.length_cons]
    omega
  · intro l hl hnoise
    obtain rfl : raw = l := by simpa [hlines, hbefore] using hl
    rw [Scan.read_noise hnoise] at hraw
    cases hraw
  · intro t ht
    have hkept : Text.lines t.toList = pre := by simpa [hlines, hbefore] using ht
    exact ⟨g u, map_eq_ok.mpr ⟨u, hkept ▸ hpre, rfl⟩⟩
  · intro t ht
    refine map_eq_error.mpr (readAll_eq_error_iff.mpr ?_)
    refine ⟨pre, raw, (Text.lines t.toList).drop e.line, u, ?_, hline, hpre, hraw⟩
    calc Text.lines t.toList
        = (Text.lines t.toList).take e.line ++ (Text.lines t.toList).drop e.line :=
          (List.take_append_drop _ _).symm
      _ = pre ++ raw :: (Text.lines t.toList).drop e.line := by rw [ht, hupTo]; simp

theorem judgesInOrder_readAll (s : Scan) (g : Scan → α) :
    JudgesInOrder fun t => (s.readAll 1 (Text.lines t.toList)).map g where
  refused _ _ h := firstFault_of_refusedWith g (refusedWith_of_readAll (map_eq_error.mp h))
  accepted text a h t hp := by
    obtain ⟨u, hu, -⟩ := map_eq_ok.mp h
    obtain ⟨v, hv⟩ := exists_readAll_of_prefix hu hp
    exact ⟨g v, map_eq_ok.mpr ⟨v, hv, rfl⟩⟩

/-- A rule and a detection block that stands alone are judged line by line: an error tells the first
bad line. A text can be cut off after any of its lines. -/
theorem parse_judgesInOrder :
    JudgesInOrder parse ∧ JudgesInOrder parseDetection ∧
      ∀ (text : String) (n : Nat), ∃ t : String,
        Text.lines t.toList = (Text.lines text.toList).take n := by
  refine ⟨?_, ?_, fun text n => ?_⟩
  · rw [funext parse_eq_map]
    exact judgesInOrder_readAll _ _
  · rw [funext parseDetection_eq_map]
    exact judgesInOrder_readAll _ _
  · refine ⟨String.ofList (Text.unlines ((Text.lines text.toList).take n)), ?_⟩
    rw [String.toList_ofList]
    exact Text.lines_unlines fun l hl c hc => Text.isBreak_of_mem_lines (List.mem_of_mem_take hl) hc

end SigmaDesk.RuleText
