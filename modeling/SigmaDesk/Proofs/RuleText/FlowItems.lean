import SigmaDesk.Proofs.RuleText.Scalar

/-!
# Items of inline lists

An item of an inline list ends at the next comma that no quotes hold, and quotes open only at its
start. So a text is a list of items between commas, or a quote opens in it that is never closed.
-/

namespace SigmaDesk.RuleText

open Text (isBlank)

variable {cs body rest after tail blanks i : List Char} {items : List (List Char)} {c : Char}

inductive Quote
  | single
  | double
deriving DecidableEq, Repr

namespace Quote

def mark : Quote → Char
  | .single => '\''
  | .double => '"'

def mode : Quote → ItemMode
  | .single => .single
  | .double => .double

end Quote

variable {q : Quote}

/-- A text between quotes that does not close them. A single quote stands doubled between single
quotes; between double quotes, a backslash takes the next character with it. -/
inductive Inside : Quote → List Char → Prop
  | nil {q : Quote} : Inside q []
  | plain {q : Quote} {c : Char} {cs : List Char} (hmark : c ≠ q.mark)
    (hescape : q = .double → c ≠ '\\') (h : Inside q cs) : Inside q (c :: cs)
  | doubled {cs : List Char} (h : Inside .single cs) : Inside .single ('\'' :: '\'' :: cs)
  | escaped {c : Char} {cs : List Char} (h : Inside .double cs) : Inside .double ('\\' :: c :: cs)

/-- Behind an opening quote, the quotes are closed again, and `after` follows. -/
def Closes (q : Quote) (rest after : List Char) : Prop :=
  ∃ body, Inside q body ∧ rest = body ++ q.mark :: after ∧ (q = .single → after.head? ≠ some '\'')

/-- What can follow the longest text between quotes that does not close them: nothing, an escape
that is cut off, or the closing quote. -/
inductive Ends : Quote → List Char → Prop
  | nothing {q : Quote} : Ends q []
  | escape : Ends .double ['\\']
  | mark {q : Quote} {after : List Char} (h : q = .single → after.head? ≠ some '\'') :
    Ends q (q.mark :: after)

theorem exists_inside (q : Quote) :
    ∀ rest, ∃ body tail, Inside q body ∧ Ends q tail ∧ rest = body ++ tail
  | [] => ⟨[], [], .nil, .nothing, rfl⟩
  | [c] => by
    by_cases hmark : c = q.mark
    · subst hmark
      exact ⟨[], _, .nil, .mark (by simp), rfl⟩
    · by_cases hescape : q = .double ∧ c = '\\'
      · obtain ⟨rfl, rfl⟩ := hescape
        exact ⟨[], _, .nil, .escape, rfl⟩
      · exact ⟨[c], [], .plain hmark (not_and.mp hescape) .nil, .nothing, rfl⟩
  | c :: d :: cs => by
    by_cases hmark : c = q.mark
    · subst hmark
      by_cases hdoubled : q = .single ∧ d = '\''
      · obtain ⟨rfl, rfl⟩ := hdoubled
        obtain ⟨body, tail, hbody, htail, rfl⟩ := exists_inside .single cs
        exact ⟨_, tail, .doubled hbody, htail, rfl⟩
      · refine ⟨[], _, .nil, .mark fun hq hd => hdoubled ⟨hq, ?_⟩, rfl⟩
        exact Option.some.inj hd
    · by_cases hescape : q = .double ∧ c = '\\'
      · obtain ⟨rfl, rfl⟩ := hescape
        obtain ⟨body, tail, hbody, htail, rfl⟩ := exists_inside .double cs
        exact ⟨_, tail, .escaped hbody, htail, rfl⟩
      · obtain ⟨body, tail, hbody, htail, hrest⟩ := exists_inside q (d :: cs)
        exact ⟨_, tail, .plain hmark (not_and.mp hescape) hbody, htail, by rw [hrest]; rfl⟩

def isQuote (c : Char) : Bool := c == '\'' || c == '"'

/-- What can stand between two commas of a list: a text without a comma that does not start with a
quote, or quotes that close and a text without a comma behind them. -/
inductive IsItem : List Char → Prop
  | bare {cs : List Char} (hcomma : ',' ∉ cs)
    (hstart : ∀ c ∈ cs.find? fun c => !isBlank c, isQuote c = false) : IsItem cs
  | quoted {q : Quote} {blanks rest after : List Char} (hblanks : ∀ c ∈ blanks, isBlank c = true)
    (hcloses : Closes q rest after) (hcomma : ',' ∉ after) : IsItem (blanks ++ q.mark :: rest)

/-- Behind any blanks, a quote opens that is never closed. -/
def NeverCloses (cs : List Char) : Prop :=
  ∃ (blanks : List Char) (q : Quote) (rest : List Char), (∀ c ∈ blanks, isBlank c = true) ∧
    (∀ after, ¬Closes q rest after) ∧ cs = blanks ++ q.mark :: rest

def LeavesOpen (cs : List Char) : Prop :=
  ∃ (items : List (List Char)) (rest : List Char), (∀ i ∈ items, IsItem i) ∧ NeverCloses rest ∧
    cs = items.flatMap (· ++ [',']) ++ rest

theorem foldr_consFirst (cs i : List Char) (items : List (List Char)) :
    cs.foldr consFirst (i :: items) = (cs ++ i) :: items := by
  induction cs with
  | nil => rfl
  | cons c cs ih => rw [List.foldr_cons, ih, consFirst, List.cons_append]

theorem splitItems?_inside (h : Inside q body) (rest : List Char) :
    splitItems? q.mode (body ++ rest) =
      (splitItems? q.mode rest).map fun items => body.foldr consFirst items := by
  induction h with
  | nil => simp
  | @plain q c cs hmark hescape h ih =>
    cases q with
    | single =>
      have hc : c ≠ '\'' := hmark
      simp_all [Quote.mode, splitItems?, Function.comp_def]
    | double =>
      have hc : c ≠ '"' := hmark
      have hc' : c ≠ '\\' := hescape rfl
      simp_all [Quote.mode, splitItems?, Function.comp_def]
  | doubled h ih => simp_all [Quote.mode, splitItems?, Function.comp_def]
  | escaped h ih => simp_all [Quote.mode, splitItems?, Function.comp_def]

theorem splitItems?_of_not_closes (h : ∀ after, ¬Closes q rest after) :
    splitItems? q.mode rest = none := by
  obtain ⟨body, tail, hbody, htail, rfl⟩ := exists_inside q rest
  rw [splitItems?_inside hbody]
  cases htail with
  | nothing => cases q <;> rfl
  | escape => rfl
  | mark hafter => exact absurd ⟨body, hbody, rfl, hafter⟩ (h _)

def EndsItem (tail : List Char) : Prop := ∀ c ∈ tail.head?, c = ','

theorem splitItems?_start_of_ends (h : EndsItem tail) :
    splitItems? .start tail = splitItems? .bare tail := by
  cases tail with
  | nil => rfl
  | cons c cs =>
    obtain rfl : c = ',' := h c rfl
    rfl

theorem splitItems?_bare (h : ',' ∉ cs) (tail : List Char) :
    splitItems? .bare (cs ++ tail) =
      (splitItems? .bare tail).map fun items => cs.foldr consFirst items := by
  induction cs with
  | nil => simp
  | cons c cs ih =>
    have hc : c ≠ ',' := fun he => h (he ▸ List.mem_cons_self)
    have hcs : ',' ∉ cs := fun hmem => h (List.mem_cons_of_mem c hmem)
    simp [splitItems?, hc, ih hcs, Function.comp_def]

theorem splitItems?_blanks (h : ∀ c ∈ blanks, isBlank c = true) (rest : List Char) :
    splitItems? .start (blanks ++ rest) =
      (splitItems? .start rest).map fun items => blanks.foldr consFirst items := by
  induction blanks with
  | nil => simp
  | cons c cs ih =>
    obtain ⟨hc, hcs⟩ := List.forall_mem_cons.mp h
    have hcomma : c ≠ ',' := by rintro rfl; exact absurd hc (by decide)
    have hsingle : c ≠ '\'' := by rintro rfl; exact absurd hc (by decide)
    have hdouble : c ≠ '"' := by rintro rfl; exact absurd hc (by decide)
    simp [splitItems?, hc, hcomma, hsingle, hdouble, ih hcs, Function.comp_def]

theorem splitItems?_quote (q : Quote) (rest : List Char) :
    splitItems? .start (q.mark :: rest) = (splitItems? q.mode rest).map (consFirst q.mark) := by
  cases q <;> simp [splitItems?, Quote.mark, Quote.mode]

theorem splitItems?_mark (h : q = .single → rest.head? ≠ some '\'') :
    splitItems? q.mode (q.mark :: rest) = (splitItems? .bare rest).map (consFirst q.mark) := by
  cases q with
  | double => simp [splitItems?, Quote.mark, Quote.mode]
  | single =>
    cases rest with
    | nil => rfl
    | cons c cs =>
      have hc : c ≠ '\'' := fun he => h rfl (congrArg some he)
      simp [splitItems?, Quote.mark, Quote.mode, hc]

theorem splitItems?_item (h : IsItem i) (htail : EndsItem tail) :
    splitItems? .start (i ++ tail) =
      (splitItems? .bare tail).map fun items => i.foldr consFirst items := by
  cases h with
  | bare hcomma hstart =>
    induction i with
    | nil => simp [splitItems?_start_of_ends htail]
    | cons c cs ih =>
      have hc : c ≠ ',' := fun he => hcomma (he ▸ List.mem_cons_self)
      have hcs : ',' ∉ cs := fun hmem => hcomma (List.mem_cons_of_mem c hmem)
      by_cases hblank : isBlank c = true
      · have hstart' : ∀ d ∈ cs.find? fun c => !isBlank c, isQuote d = false := by
          simpa [hblank] using hstart
        have hquote : c ≠ '\'' ∧ c ≠ '"' := by
          constructor <;> rintro rfl <;> exact absurd hblank (by decide)
        simp [splitItems?, hc, hquote, hblank, ih hcs hstart', Function.comp_def]
      · have hquote : c ≠ '\'' ∧ c ≠ '"' := by simpa [isQuote, hblank] using hstart
        simp [splitItems?, hc, hquote, hblank, splitItems?_bare hcs, Function.comp_def]
  | @quoted q blanks rest after hblanks hcloses hcomma =>
    obtain ⟨body, hbody, rfl, hafter⟩ := hcloses
    -- A single quote right behind the closing one would make both an escape.
    have hnext : q = .single → (after ++ tail).head? ≠ some '\'' := by
      intro hq
      cases after with
      | cons c cs => exact hafter hq
      | nil =>
        intro hmem
        exact absurd (htail _ hmem) (by decide)
    rw [List.append_assoc, splitItems?_blanks hblanks, List.cons_append, splitItems?_quote,
      List.append_assoc, splitItems?_inside hbody, List.cons_append, splitItems?_mark hnext,
      splitItems?_bare hcomma]
    simp [Function.comp_def]

theorem splitItems?_last (h : IsItem i) : splitItems? .start i = some [i] := by
  have hends : EndsItem [] := nofun
  have hitem := splitItems?_item h hends
  rw [List.append_nil] at hitem
  rw [hitem, splitItems?, Option.map_some, foldr_consFirst, List.append_nil]

theorem splitItems?_comma (h : IsItem i) (rest : List Char) :
    splitItems? .start (i ++ ',' :: rest) = (splitItems? .start rest).map (i :: ·) := by
  have hends : EndsItem (',' :: rest) := fun c hc => (Option.some.inj hc).symm
  rw [splitItems?_item h hends]
  simp [splitItems?, Function.comp_def, foldr_consFirst]

theorem splitItems?_items (h : ∀ i ∈ items, IsItem i) (rest : List Char) :
    splitItems? .start (items.flatMap (· ++ [',']) ++ rest) =
      (splitItems? .start rest).map (items ++ ·) := by
  induction items with
  | nil => simp
  | cons i items ih =>
    obtain ⟨hi, hitems⟩ := List.forall_mem_cons.mp h
    rw [List.flatMap_cons, List.append_assoc, List.append_assoc, List.singleton_append,
      splitItems?_comma hi, ih hitems, Option.map_map]
    rfl

theorem splitItems?_intercalate (hne : items ≠ []) (h : ∀ i ∈ items, IsItem i) :
    splitItems? .start ([','].intercalate items) = some items := by
  induction items with
  | nil => exact absurd rfl hne
  | cons i items ih =>
    obtain ⟨hi, hitems⟩ := List.forall_mem_cons.mp h
    cases items with
    | nil => simpa using splitItems?_last hi
    | cons j items =>
      rw [List.intercalate_cons_cons, List.append_assoc, List.singleton_append,
        splitItems?_comma hi, ih (List.cons_ne_nil j items) hitems, Option.map_some]

theorem splitItems?_of_leavesOpen (h : LeavesOpen cs) : splitItems? .start cs = none := by
  obtain ⟨items, _, hitems, ⟨blanks, q, rest, hblanks, hopen, rfl⟩, rfl⟩ := h
  rw [splitItems?_items hitems, splitItems?_blanks hblanks, splitItems?_quote,
    splitItems?_of_not_closes hopen]
  rfl

theorem exists_comma (cs : List Char) : ∃ i tail, ',' ∉ i ∧ EndsItem tail ∧ cs = i ++ tail := by
  refine ⟨cs.takeWhile (· != ','), cs.dropWhile (· != ','), fun hmem => ?_, fun c hc => ?_, ?_⟩
  · simpa using List.mem_takeWhile_imp hmem
  · have hnot := List.head?_dropWhile_not (· != ',') cs
    rw [hc] at hnot
    simpa using hnot
  · exact (List.takeWhile_append_dropWhile ..).symm

theorem exists_item_of_closes (hblanks : ∀ c ∈ blanks, isBlank c = true) (h : Closes q rest after) :
    ∃ i tail, IsItem i ∧ EndsItem tail ∧ blanks ++ q.mark :: rest = i ++ tail := by
  obtain ⟨body, hbody, rfl, hafter⟩ := h
  obtain ⟨i, tail, hcomma, htail, rfl⟩ := exists_comma after
  have hcloses : Closes q (body ++ q.mark :: i) i := by
    refine ⟨body, hbody, rfl, fun hq => ?_⟩
    cases i with
    | nil => simp
    | cons c cs => exact hafter hq
  exact ⟨_, tail, .quoted hblanks hcloses hcomma, htail, by simp⟩

theorem exists_item_or_neverCloses (cs : List Char) :
    (∃ i tail, IsItem i ∧ EndsItem tail ∧ cs = i ++ tail) ∨ NeverCloses cs := by
  have hblanks : ∀ c ∈ cs.takeWhile isBlank, isBlank c = true := fun c => List.mem_takeWhile_imp
  have hcs : cs.takeWhile isBlank ++ cs.dropWhile isBlank = cs := List.takeWhile_append_dropWhile ..
  by_cases hquote : ∃ (q : Quote) (rest : List Char), cs.dropWhile isBlank = q.mark :: rest
  · obtain ⟨q, rest, hrest⟩ := hquote
    rw [hrest] at hcs
    by_cases hcloses : ∃ after, Closes q rest after
    · obtain ⟨after, hcloses⟩ := hcloses
      exact .inl (hcs ▸ exists_item_of_closes hblanks hcloses)
    · exact .inr ⟨_, q, rest, hblanks, not_exists.mp hcloses, hcs.symm⟩
  · obtain ⟨i, tail, hcomma, htail, hi⟩ := exists_comma cs
    refine .inl ⟨i, tail, .bare hcomma fun c hc => ?_, htail, hi⟩
    -- What the item starts with is what the text starts with.
    have hhead : (cs.dropWhile isBlank).head? = some c := by
      rw [← List.find?_not_eq_head?_dropWhile, hi, List.find?_append, Option.mem_def.mp hc]
      rfl
    obtain ⟨rest, hrest⟩ := List.head?_eq_some_iff.mp hhead
    by_contra hmark
    rcases Bool.or_eq_true_iff.mp (Bool.not_eq_false _ ▸ hmark) with hc | hc
    · exact hquote ⟨.single, rest, by rw [hrest, eq_of_beq hc]; rfl⟩
    · exact hquote ⟨.double, rest, by rw [hrest, eq_of_beq hc]; rfl⟩

/-- Every text is a list of items between commas, or leaves a quote open. -/
theorem exists_items_or_leavesOpen (cs : List Char) :
    (∃ items, items ≠ [] ∧ (∀ i ∈ items, IsItem i) ∧ cs = [','].intercalate items) ∨
      LeavesOpen cs := by
  induction hn : cs.length using Nat.strong_induction_on generalizing cs with
  | _ n ih =>
  rcases exists_item_or_neverCloses cs with ⟨i, tail, hi, htail, rfl⟩ | hopen
  · cases tail with
    | nil => exact .inl ⟨[i], List.cons_ne_nil i [], by simpa using hi, by simp⟩
    | cons c rest =>
      obtain rfl : c = ',' := htail c rfl
      have hshorter : rest.length < n := by
        rw [← hn, List.length_append, List.length_cons]
        omega
      rcases ih _ hshorter rest rfl with
        ⟨items, hne, hitems, rfl⟩ | ⟨items, rest', hitems, hopen, rfl⟩
      · have hall : ∀ j ∈ i :: items, IsItem j := List.forall_mem_cons.mpr ⟨hi, hitems⟩
        refine .inl ⟨i :: items, List.cons_ne_nil i items, hall, ?_⟩
        obtain ⟨j, items, rfl⟩ := List.exists_cons_of_ne_nil hne
        rw [List.intercalate_cons_cons, List.append_assoc, List.singleton_append]
      · exact .inr ⟨i :: items, rest', List.forall_mem_cons.mpr ⟨hi, hitems⟩, hopen, by simp⟩
  · exact .inr ⟨[], cs, List.forall_mem_nil _, hopen, rfl⟩

theorem splitItems?_eq_none_iff : splitItems? .start cs = none ↔ LeavesOpen cs := by
  refine ⟨fun hnone => ?_, splitItems?_of_leavesOpen⟩
  rcases exists_items_or_leavesOpen cs with ⟨items, hne, hitems, rfl⟩ | hopen
  · cases hnone.symm.trans (splitItems?_intercalate hne hitems)
  · exact hopen

theorem ne_nil_of_splitItems? (h : splitItems? .start cs = some items) : items ≠ [] := by
  rcases exists_items_or_leavesOpen cs with ⟨items', hne, hitems, rfl⟩ | hopen
  · obtain rfl := Option.some.inj (h.symm.trans (splitItems?_intercalate hne hitems))
    exact hne
  · cases h.symm.trans (splitItems?_of_leavesOpen hopen)

end SigmaDesk.RuleText
