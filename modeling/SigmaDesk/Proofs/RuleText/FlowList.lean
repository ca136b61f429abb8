import SigmaDesk.Proofs.RuleText.FlowItems

/-!
# Inline lists give back what is written in them

Texts that are written as the items of an inline list come back from it, whatever quotes and blanks
they are written with. Its one fault is a quote at the start of an item that is never closed.
-/

namespace SigmaDesk.RuleText

open Text (isBlank)

variable {cs blanks : List Char} {items : List (List Char)} {a b c d : Char} {q : Quote}

-- ---------------------------------------------------------------------------
-- Blanks at the ends
-- ---------------------------------------------------------------------------

def rightTrimmed (items? : Option (List (List Char))) : Option (List (List Char)) :=
  items?.map (·.map Text.trimRight)

theorem trimRight_cons_congr {i j : List Char} (h : Text.trimRight i = Text.trimRight j)
    (c : Char) :
    Text.trimRight (c :: i) = Text.trimRight (c :: j) := by
  rw [Text.trimRight, Text.trimRight, h]

theorem rightTrimmed_consFirst {x y : Option (List (List Char))}
    (h : rightTrimmed x = rightTrimmed y) (c : Char) :
    rightTrimmed (x.map (consFirst c)) = rightTrimmed (y.map (consFirst c)) := by
  cases x with
  | none => cases y <;> simp_all [rightTrimmed]
  | some is =>
    cases y with
    | none => simp [rightTrimmed] at h
    | some js =>
      have hmap : is.map Text.trimRight = js.map Text.trimRight := by simpa [rightTrimmed] using h
      cases is with
      | nil => simp_all [rightTrimmed]
      | cons i is =>
        cases js with
        | nil => simp at hmap
        | cons j js =>
          obtain ⟨hfirst, hrest⟩ := List.cons.inj hmap
          simp [rightTrimmed, consFirst, hrest, trimRight_cons_congr hfirst c]

theorem rightTrimmed_newItem {x y : Option (List (List Char))}
    (h : rightTrimmed x = rightTrimmed y) :
    rightTrimmed (x.map ([] :: ·)) = rightTrimmed (y.map ([] :: ·)) := by
  cases x <;> cases y <;> simp_all [rightTrimmed]

theorem splitItems?_append_blank (hc : isBlank c = true) (mode : ItemMode) (cs : List Char) :
    rightTrimmed (splitItems? mode (cs ++ [c])) = rightTrimmed (splitItems? mode cs) := by
  -- A blank ends no item and opens no quote, so it goes to the item that is being read.
  have hcomma : c ≠ ',' := by rintro rfl; exact absurd hc (by decide)
  have hsingle : c ≠ '\'' := by rintro rfl; exact absurd hc (by decide)
  have hdouble : c ≠ '"' := by rintro rfl; exact absurd hc (by decide)
  fun_induction splitItems? mode cs with
  | case1 =>
    simp [splitItems?, hcomma, hsingle, hdouble, hc, rightTrimmed, consFirst, Text.trimRight]
  | case2 => simp [splitItems?, hcomma, hc, rightTrimmed, consFirst, Text.trimRight]
  | case3 => simp [splitItems?, hsingle]
  | case4 => simp [splitItems?, hdouble]
  | case5 cs ih =>
    rw [List.cons_append, List.cons_append, splitItems?, ← Option.map_map, ← Option.map_map]
    exact rightTrimmed_consFirst (rightTrimmed_consFirst ih _) _
  | case6 d cs hplain ih =>
    rw [List.cons_append, splitItems?.eq_6]
    · exact rightTrimmed_consFirst ih d
    · rintro rest rfl hrest
      cases cs with
      | nil => exact hsingle (List.cons.inj hrest).1
      | cons e es => exact hplain es rfl (congrArg (· :: es) (List.cons.inj hrest).1)
  | case7 d cs ih =>
    rw [List.cons_append, List.cons_append, splitItems?, ← Option.map_map, ← Option.map_map]
    exact rightTrimmed_consFirst (rightTrimmed_consFirst ih _) _
  | case8 d cs hplain ih =>
    by_cases hd : d = '\\'
    · subst hd
      obtain rfl : cs = [] := by
        cases cs with
        | nil => rfl
        | cons e es => exact (hplain e es rfl rfl).elim
      rfl
    · rw [List.cons_append, splitItems?.eq_8]
      · exact rightTrimmed_consFirst ih d
      · exact fun _ _ he _ => hd he
  | case9 mode cs hnotSingle hnotDouble _ _ ih =>
    rw [List.cons_append, splitItems?.eq_9 _ _ _ (fun _ h => (hnotSingle h).elim) hnotSingle
      (fun _ _ h => (hnotDouble h).elim) hnotDouble, if_pos rfl]
    exact rightTrimmed_newItem ih
  | case10 mode d cs _ hnotSingle _ hnotDouble hd _ ih =>
    rw [List.cons_append, splitItems?.eq_9 _ _ _ (fun _ h => (hnotSingle h).elim) hnotSingle
      (fun _ _ h => (hnotDouble h).elim) hnotDouble, if_neg hd]
    exact rightTrimmed_consFirst ih d

theorem splitItems?_append_blanks (hblanks : ∀ c ∈ blanks, isBlank c = true) (mode : ItemMode)
    (cs : List Char) :
    rightTrimmed (splitItems? mode (cs ++ blanks)) = rightTrimmed (splitItems? mode cs) := by
  induction blanks generalizing cs with
  | nil => rw [List.append_nil]
  | cons c blanks ih =>
    obtain ⟨hc, hblanks⟩ := List.forall_mem_cons.mp hblanks
    rw [List.append_cons, ih hblanks, splitItems?_append_blank hc]

def trimmedItems? (cs : List Char) : Option (List (List Char)) :=
  (splitItems? .start cs).map (·.map Text.trim)

theorem trimmedItems?_eq (cs : List Char) :
    trimmedItems? cs = (rightTrimmed (splitItems? .start cs)).map (·.map Text.trimLeft) := by
  rw [trimmedItems?, rightTrimmed, Option.map_map]
  congr 1
  funext items
  rw [Function.comp_apply, List.map_map]
  rfl

theorem trimmedItems?_append_blanks (hblanks : ∀ c ∈ blanks, isBlank c = true) (cs : List Char) :
    trimmedItems? (cs ++ blanks) = trimmedItems? cs := by
  rw [trimmedItems?_eq, trimmedItems?_eq, splitItems?_append_blanks hblanks]

theorem trimmedItems?_blanks_append (hblanks : ∀ c ∈ blanks, isBlank c = true) (cs : List Char) :
    trimmedItems? (blanks ++ cs) = trimmedItems? cs := by
  rw [trimmedItems?, trimmedItems?, splitItems?_blanks hblanks, Option.map_map]
  cases h : splitItems? .start cs with
  | none => rfl
  | some items =>
    obtain ⟨i, items, rfl⟩ := List.exists_cons_of_ne_nil (ne_nil_of_splitItems? h)
    simp [foldr_consFirst, Text.trim_blanks_append hblanks]

theorem trimmedItems?_trim (cs : List Char) : trimmedItems? (Text.trim cs) = trimmedItems? cs := by
  obtain ⟨b, hb, hcs⟩ := Text.exists_blanks_of_trimRight cs
  calc trimmedItems? (Text.trim cs)
      = trimmedItems? ((Text.trimRight cs).takeWhile isBlank ++ Text.trim cs) :=
        (trimmedItems?_blanks_append (fun _ => List.mem_takeWhile_imp) _).symm
    _ = trimmedItems? (Text.trimRight cs) := by
        rw [Text.trim, Text.trimLeft, List.takeWhile_append_dropWhile]
    _ = trimmedItems? (Text.trimRight cs ++ b) := (trimmedItems?_append_blanks hb _).symm
    _ = trimmedItems? cs := by rw [hcs]

theorem inlineList?_brackets (inner : List Char) :
    inlineList? ('[' :: inner ++ [']']) =
      if Text.trim inner = [] then .ok (some [])
      else
        match trimmedItems? inner with
        | some items => .ok (some (items.map scalar))
        | none => .error .unclosedQuote := by
  have hlast : (inner ++ [']']).getLast? = some ']' := by simp
  have hinner : (inner ++ [']']).dropLast = inner := by simp
  rw [← trimmedItems?_trim, trimmedItems?, inlineList?, List.cons_append, flowList?, if_pos hlast,
    hinner]
  by_cases hempty : Text.trim inner = []
  · simp [hempty]
  · simp only [List.isEmpty_iff, if_neg hempty]
    cases splitItems? .start (Text.trim inner) <;> simp [Function.comp_def, scalar]

-- ---------------------------------------------------------------------------
-- Written items
-- ---------------------------------------------------------------------------

/-- A text as it stands between quotes: a single quote is doubled between single quotes; between
double quotes, a backslash stands before a double quote and before a backslash. -/
def Quote.escape : Quote → List Char → List Char
  | .single, cs => cs.flatMap fun c => if c = '\'' then ['\'', '\''] else [c]
  | .double, cs => cs.flatMap fun c => if c = '"' ∨ c = '\\' then ['\\', c] else [c]

def Quote.write (q : Quote) (cs : List Char) : List Char := q.mark :: q.escape cs ++ [q.mark]

theorem inside_escape (q : Quote) (cs : List Char) : Inside q (q.escape cs) := by
  induction cs with
  | nil => cases q <;> exact .nil
  | cons c cs ih =>
    cases q with
    | single =>
      by_cases hc : c = '\''
      · simpa [Quote.escape, hc] using ih.doubled
      · simpa [Quote.escape, hc] using Inside.plain (q := .single) hc (fun hq => nomatch hq) ih
    | double =>
      by_cases hc : c = '"' ∨ c = '\\'
      · simpa [Quote.escape, hc] using ih.escaped
      · obtain ⟨hmark, hescape⟩ := not_or.mp hc
        simpa [Quote.escape, hc] using ih.plain hmark fun _ => hescape

theorem isBlank_mark (q : Quote) : isBlank q.mark = false := by cases q <;> rfl

theorem trimmed_write (q : Quote) (cs : List Char) : Text.Trimmed (q.write cs) where
  head c h := by
    obtain rfl : q.mark = c := by simpa [Quote.write] using h
    exact isBlank_mark q
  last c h := by
    rw [Quote.write, List.getLast?_append] at h
    obtain rfl : q.mark = c := by simpa using h
    exact isBlank_mark q

theorem head?_escape_double (cs : List Char) : (Quote.escape .double cs).head? ≠ some '"' := by
  cases cs with
  | nil => simp [Quote.escape]
  | cons c cs =>
    by_cases hc : c = '"' ∨ c = '\\'
    · simp [Quote.escape, hc]
    · simpa [Quote.escape, hc] using (not_or.mp hc).1

theorem collapse_cons_of_head (h : cs.head? ≠ some b) :
    collapse a b d (c :: cs) = c :: collapse a b d cs := by
  cases cs with
  | nil => simp [collapse]
  | cons e es =>
    have he : e ≠ b := fun he => h (congrArg some he)
    simp [collapse, he]

theorem collapse_escape_double (cs : List Char) :
    collapse '\\' '"' '"' (Quote.escape .double cs) =
      cs.flatMap fun c => if c = '\\' then ['\\', '\\'] else [c] := by
  induction cs with
  | nil => rfl
  | cons c cs ih =>
    have hhead := head?_escape_double cs
    simp only [Quote.escape, List.flatMap_cons] at ih hhead ⊢
    by_cases hmark : c = '"'
    · simp [hmark, collapse, ih]
    · by_cases hescape : c = '\\'
      · simp [hescape, collapse, collapse_cons_of_head hhead, ih]
      · simp [hmark, hescape, collapse_cons_of_ne hescape, ih]

/-- What is written between quotes is read back. -/
theorem unquote_write (q : Quote) (cs : List Char) : unquote (q.write cs) = cs := by
  cases q with
  | single => exact unquote_quote cs
  | double =>
    have hsingle : enclosed? '\'' (Quote.write .double cs) = none :=
      enclosed?_of_ne fun c hc => by
        obtain rfl : '"' = c := by simpa [Quote.write, Quote.mark] using hc
        decide
    have hdouble : enclosed? '"' (Quote.write .double cs) = some (Quote.escape .double cs) :=
      enclosed?_quoted
    rw [unquote, hsingle, hdouble]
    simp only [collapse_escape_double, collapse_doubled]

inductive Spelling
  | bare
  | quoted (q : Quote)
deriving DecidableEq, Repr

def Spelling.write : Spelling → List Char → List Char
  | .bare, cs => cs
  | .quoted q, cs => q.write cs

structure ListItem where
  text : String
  spelling : Spelling
  before : List Char := []
  after : List Char := []

namespace ListItem

def chars (i : ListItem) : List Char := i.before ++ i.spelling.write i.text.toList ++ i.after

structure Bare (text : String) : Prop where
  ne_empty : text ≠ ""
  trimmed : Text.trim text.toList = text.toList
  noComma : ',' ∉ text.toList
  noQuote : ∀ c ∈ text.toList.head?, c ≠ '\'' ∧ c ≠ '"'

instance (text : String) : Decidable (Bare text) :=
  decidable_of_iff (text ≠ "" ∧ Text.trim text.toList = text.toList ∧ ',' ∉ text.toList ∧
      text.toList.head?.all (fun c => c != '\'' && c != '"') = true) <| by
    constructor
    · rintro ⟨hne, htrim, hcomma, hquote⟩
      exact ⟨hne, htrim, hcomma, by simpa [Option.all_eq_true] using hquote⟩
    · rintro ⟨hne, htrim, hcomma, hquote⟩
      exact ⟨hne, htrim, hcomma, by simpa [Option.all_eq_true] using hquote⟩

/-- Only blanks stand around an item, and quotes are left out only where they are not needed. -/
structure WellWritten (i : ListItem) : Prop where
  before : ∀ c ∈ i.before, isBlank c = true
  after : ∀ c ∈ i.after, isBlank c = true
  bare : i.spelling = .bare → Bare i.text

instance (i : ListItem) : Decidable i.WellWritten :=
  decidable_of_iff (i.before.all isBlank = true ∧ i.after.all isBlank = true ∧
      (i.spelling = .bare → Bare i.text)) <| by
    rw [List.all_eq_true, List.all_eq_true]
    exact ⟨fun ⟨hbefore, hafter, hbare⟩ => ⟨hbefore, hafter, hbare⟩,
      fun ⟨hbefore, hafter, hbare⟩ => ⟨hbefore, hafter, hbare⟩⟩

end ListItem

def flowText (items : List ListItem) : List Char :=
  '[' :: [','].intercalate (items.map (·.chars)) ++ [']']

namespace ListItem

variable {item : ListItem}

theorem WellWritten.trimmed (h : item.WellWritten) :
    Text.Trimmed (item.spelling.write item.text.toList) := by
  cases hs : item.spelling with
  | bare => exact Text.trim_eq_self_iff.mp (h.bare hs).trimmed
  | quoted q => exact trimmed_write q _

theorem WellWritten.trim_chars (h : item.WellWritten) :
    Text.trim item.chars = item.spelling.write item.text.toList := by
  rw [chars, Text.trim, Text.trimRight_append_blanks h.after]
  exact (Text.trim_blanks_append h.before _).trans h.trimmed.trim_eq

theorem Bare.scalar_eq {text : String} (h : Bare text) : scalar text.toList = text := by
  have hsingle : enclosed? '\'' text.toList = none := enclosed?_of_ne fun c hc => (h.noQuote c hc).1
  have hdouble : enclosed? '"' text.toList = none := enclosed?_of_ne fun c hc => (h.noQuote c hc).2
  rw [scalar, unquote, hsingle, hdouble, String.ofList_toList]

theorem WellWritten.scalar_trim_chars (h : item.WellWritten) :
    scalar (Text.trim item.chars) = item.text := by
  rw [h.trim_chars]
  cases hs : item.spelling with
  | bare => exact (h.bare hs).scalar_eq
  | quoted q => rw [Spelling.write, scalar, unquote_write, String.ofList_toList]

theorem not_mem_blanks (h : ∀ c ∈ blanks, isBlank c = true) (hc : isBlank c = false) :
    c ∉ blanks := by
  intro hmem
  cases hc.symm.trans (h c hmem)

theorem find?_blanks_append (h : ∀ c ∈ blanks, isBlank c = true) (cs : List Char) :
    (blanks ++ cs).find? (fun c => !isBlank c) = cs.find? fun c => !isBlank c := by
  have hnone : blanks.find? (fun c => !isBlank c) = none := by simpa using h
  rw [List.find?_append, hnone, Option.none_or]

theorem WellWritten.isItem (h : item.WellWritten) : IsItem item.chars := by
  have hcomma {b : List Char} (hb : ∀ c ∈ b, isBlank c = true) : ',' ∉ b :=
    not_mem_blanks hb (by decide)
  cases hs : item.spelling with
  | bare =>
    obtain ⟨hne, htrim, hcomma', hquote⟩ := h.bare hs
    refine .bare ?_ fun c hc => ?_
    · simp [chars, hs, Spelling.write, hcomma h.before, hcomma h.after, hcomma']
    · -- The first character that is not blank is the first one of the text.
      have htrimmed := Text.trim_eq_self_iff.mp htrim
      cases htext : item.text.toList with
      | nil => exact absurd (String.toList_eq_nil_iff.mp htext) hne
      | cons d ds =>
        have hd : isBlank d = false := htrimmed.head d (by rw [htext]; rfl)
        rw [chars, hs, Spelling.write, htext, List.append_assoc, find?_blanks_append h.before] at hc
        obtain rfl : d = c := by simpa [hd] using hc
        simpa [isQuote] using hquote d (by rw [htext]; rfl)
  | quoted q =>
    have hcloses : Closes q (q.escape item.text.toList ++ q.mark :: item.after) item.after := by
      refine ⟨_, inside_escape q _, rfl, fun _ hc => ?_⟩
      exact not_mem_blanks h.after (by decide) (List.mem_of_mem_head? hc)
    simpa [chars, hs, Spelling.write, Quote.write] using
      IsItem.quoted h.before hcloses (hcomma h.after)

theorem WellWritten.exists_mem (h : item.WellWritten) : ∃ c ∈ item.chars, isBlank c = false := by
  have hne : item.spelling.write item.text.toList ≠ [] := by
    cases hs : item.spelling with
    | bare => exact fun hnil => (h.bare hs).ne_empty (String.toList_eq_nil_iff.mp hnil)
    | quoted q => exact List.cons_ne_nil _ _
  obtain ⟨c, cs, hc⟩ := List.exists_cons_of_ne_nil hne
  refine ⟨c, ?_, h.trimmed.head c (by rw [hc]; rfl)⟩
  rw [chars, hc]
  simp

end ListItem

theorem splitItems?_flowText {items : List ListItem} (hne : items ≠ [])
    (h : ∀ i ∈ items, i.WellWritten) :
    splitItems? .start ([','].intercalate (items.map (·.chars))) = some (items.map (·.chars)) := by
  refine splitItems?_intercalate (by simpa using hne) fun i hi => ?_
  obtain ⟨item, hitem, rfl⟩ := List.mem_map.mp hi
  exact (h item hitem).isItem

theorem inlineList?_items {items : List ListItem} (hne : items ≠ [])
    (h : ∀ i ∈ items, i.WellWritten) :
    inlineList? (flowText items) = .ok (some (items.map (·.text))) := by
  have hsome : Text.trim ([','].intercalate (items.map (·.chars))) ≠ [] := by
    intro hnil
    obtain ⟨item, items, rfl⟩ := List.exists_cons_of_ne_nil hne
    obtain ⟨c, hmem, hc⟩ := (h item List.mem_cons_self).exists_mem
    have hfirst : c ∈ [','].intercalate ((item :: items).map (·.chars)) := by
      cases items <;> simp [List.intercalate_cons_cons, hmem]
    cases hc.symm.trans (Text.isBlank_of_trim_eq_nil hnil hfirst)
  have htexts : ((items.map (·.chars)).map Text.trim).map scalar = items.map (·.text) := by
    rw [List.map_map, List.map_map]
    exact List.map_congr_left fun item hitem => (h item hitem).scalar_trim_chars
  rw [flowText, inlineList?_brackets, if_neg hsome, trimmedItems?, splitItems?_flowText hne h]
  simp only [Option.map_some, htexts]

theorem inlineList?_brackets_eq_error_iff {inner : List Char} :
    inlineList? ('[' :: inner ++ [']']) = .error .unclosedQuote ↔ LeavesOpen inner := by
  rw [← splitItems?_eq_none_iff, inlineList?_brackets]
  by_cases hblank : Text.trim inner = []
  · have hsome : trimmedItems? inner = some [[]] := by rw [← trimmedItems?_trim, hblank]; rfl
    rw [if_pos hblank]
    refine iff_of_false nofun fun hnone => ?_
    rw [trimmedItems?, hnone] at hsome
    cases hsome
  · rw [if_neg hblank, trimmedItems?]
    cases splitItems? .start inner <;> simp

theorem exists_brackets_of_unclosedQuote (h : inlineList? cs = .error .unclosedQuote) :
    ∃ inner, cs = '[' :: inner ++ [']'] := by
  unfold inlineList? flowList? at h
  cases cs with
  | nil => cases h
  | cons c cs =>
    by_cases hc : c = '['
    · subst hc
      by_cases hlast : cs.getLast? = some ']'
      · obtain ⟨inner, rfl⟩ := List.getLast?_eq_some_iff.mp hlast
        exact ⟨inner, rfl⟩
      · simp [hlast] at h
    · simp [hc] at h

/-- An inline list gives back the texts that are written in it; with nothing but blanks between the
brackets it has none. A list is refused for its quotes exactly if one opens at the start of an item
and is never closed. -/
theorem inlineList?_flowText :
    (∀ items : List ListItem, items ≠ [] → (∀ i ∈ items, i.WellWritten) →
      inlineList? (flowText items) = .ok (some (items.map (·.text)))) ∧
    (∀ blanks : List Char, (∀ c ∈ blanks, isBlank c = true) →
      inlineList? ('[' :: blanks ++ [']']) = .ok (some [])) ∧
    ∀ value, inlineList? value = .error .unclosedQuote ↔
      ∃ inner, value = '[' :: inner ++ [']'] ∧ LeavesOpen inner := by
  refine ⟨fun items hne h => inlineList?_items hne h, fun blanks hblanks => ?_, fun value => ?_⟩
  · have hnil : Text.trim blanks = [] := by
      have happend := Text.trim_blanks_append hblanks []
      rwa [List.append_nil] at happend
    rw [inlineList?_brackets, if_pos hnil]
  · constructor
    · intro herror
      obtain ⟨inner, rfl⟩ := exists_brackets_of_unclosedQuote herror
      exact ⟨inner, rfl, inlineList?_brackets_eq_error_iff.mp herror⟩
    · rintro ⟨inner, rfl, hopen⟩
      exact inlineList?_brackets_eq_error_iff.mpr hopen

def markedItems : List ListItem :=
  [{ text := "it's, so", spelling := .quoted .single, after := [' '] },
    { text := "C:\\\"x\"]\\", spelling := .quoted .double, before := [' '] },
    { text := "[d'", spelling := .bare, before := [' '], after := [' ', ' '] },
    { text := "", spelling := .quoted .single }]

theorem inlineList?_flowText_marked :
    markedItems ≠ [] ∧ (∀ i ∈ markedItems, i.WellWritten) ∧
    flowText markedItems = "['it''s, so' , \"C:\\\\\\\"x\\\"]\\\\\", [d'  ,'']".toList ∧
    inlineList? (flowText markedItems) = .ok (some ["it's, so", "C:\\\"x\"]\\", "[d'", ""]) ∧
    LeavesOpen "a, 'b".toList ∧
    inlineList? ('[' :: "a, 'b".toList ++ [']']) = .error .unclosedQuote := by
  have hopen : LeavesOpen "a, 'b".toList := by
    have hitem : IsItem ['a'] := .bare (by decide) <| by
      intro c hc
      obtain rfl : 'a' = c := Option.some.inj hc
      rfl
    refine ⟨[['a']], " 'b".toList, List.forall_mem_singleton.mpr hitem, ?_, rfl⟩
    refine ⟨[' '], .single, ['b'], List.forall_mem_singleton.mpr rfl, ?_, rfl⟩
    rintro after ⟨body, -, hbody, -⟩
    have hmark : '\'' ∈ ['b'] := by rw [hbody]; simp [Quote.mark]
    exact absurd hmark (by decide)
  have hne : markedItems ≠ [] := by decide
  have hwritten : ∀ i ∈ markedItems, i.WellWritten := by decide +kernel
  refine ⟨hne, hwritten, by decide +kernel, ?_, hopen, ?_⟩
  · exact inlineList?_flowText.1 markedItems hne hwritten
  · exact (inlineList?_flowText.2.2 _).mpr ⟨_, rfl, hopen⟩

end SigmaDesk.RuleText
