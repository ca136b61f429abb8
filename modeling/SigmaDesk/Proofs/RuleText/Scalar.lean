import SigmaDesk.Proofs.Text
import SigmaDesk.RuleText.Scan
import SigmaDesk.RuleText.Writer

/-!
# Scalars are read back as they were written

A value that is written bare or between quotes stands for itself again, and nothing on the way to
its line and back changes it.
-/

namespace SigmaDesk.RuleText

open Text (Trimmed isBlank isBreak unbroken)

variable {c d a b q : Char} {cs : List Char} {v : String}

theorem collapse_cons_of_ne (h : c ≠ a) : collapse a b d (c :: cs) = c :: collapse a b d cs := by
  cases cs with
  | nil => simp [collapse]
  | cons e es => simp [collapse, h]

theorem collapse_doubled :
    collapse a a a (cs.flatMap fun c => if c = a then [a, a] else [c]) = cs := by
  induction cs with
  | nil => rfl
  | cons c cs ih =>
    by_cases hc : c = a
    · simp [hc, collapse, ih]
    · rw [List.flatMap_cons, if_neg hc, List.singleton_append, collapse_cons_of_ne hc, ih]

theorem enclosed?_quoted : enclosed? q (q :: cs ++ [q]) = some cs := by
  simp [enclosed?]

theorem enclosed?_of_ne (h : ∀ c, cs.head? = some c → c ≠ q) : enclosed? q cs = none := by
  cases cs with
  | nil => rfl
  | cons c cs => simp [enclosed?, h c rfl]

theorem hasPair_append (pre post : List Char) : hasPair a b (pre ++ a :: b :: post) = true := by
  induction pre with
  | nil => simp [hasPair]
  | cons c pre ih =>
    cases pre with
    | nil => simp_all [hasPair]
    | cons d pre => simp_all [hasPair]

theorem unquote_quote (cs : List Char) : unquote (quote cs) = cs := by
  rw [unquote, quote, enclosed?_quoted]
  exact collapse_doubled

/-- A value that needs no quotes is trimmed, and its first character opens nothing. -/
theorem bare_spec (h : needsQuotes cs = false) :
    Trimmed cs ∧ ∀ c, cs.head? = some c → leadingMarks.contains c = false := by
  simp only [needsQuotes, Bool.or_eq_false_iff, bne_eq_false_iff_eq] at h
  obtain ⟨⟨⟨⟨⟨⟨htrim, hlead⟩, -⟩, -⟩, -⟩, -⟩, -⟩ := h
  refine ⟨Text.trim_eq_self_iff.mp htrim.symm, fun c hc => ?_⟩
  cases cs with
  | nil => simp at hc
  | cons d ds =>
    obtain rfl : d = c := by simpa using hc
    exact hlead

theorem ne_of_not_leading (h : leadingMarks.contains c = false) (hq : q ∈ leadingMarks) :
    c ≠ q := by
  rintro rfl
  rw [List.contains_iff_mem.mpr hq] at h
  exact absurd h (by decide)

theorem unquote_of_bare (h : needsQuotes cs = false) : unquote cs = cs := by
  have hlead := (bare_spec h).2
  have hsingle : enclosed? '\'' cs = none :=
    enclosed?_of_ne fun c hc => ne_of_not_leading (hlead c hc) (by decide)
  have hdouble : enclosed? '"' cs = none :=
    enclosed?_of_ne fun c hc => ne_of_not_leading (hlead c hc) (by decide)
  rw [unquote, hsingle, hdouble]

theorem trimmed_quote (cs : List Char) : Trimmed (quote cs) where
  head c h := by
    obtain rfl : '\'' = c := by simpa [quote] using h
    decide
  last c h := by
    rw [quote, List.getLast?_append] at h
    obtain rfl : '\'' = c := by simpa using h
    decide

theorem toList_bareOrQuoted (v : String) : (bareOrQuoted v).toList =
    if needsQuotes v.toList then quote v.toList else v.toList := by
  unfold bareOrQuoted
  split <;> simp

theorem trimmed_bareOrQuoted (v : String) : Trimmed (bareOrQuoted v).toList := by
  rw [toList_bareOrQuoted]
  split
  · exact trimmed_quote _
  · rename_i h
    exact (bare_spec (by simpa using h)).1

@[simp] theorem scalar_quote (v : String) : scalar (quote v.toList) = v := by
  rw [scalar, unquote_quote, String.ofList_toList]

@[simp] theorem scalar_bareOrQuoted (v : String) : scalar (bareOrQuoted v).toList = v := by
  rw [scalar, toList_bareOrQuoted]
  split
  · rw [unquote_quote, String.ofList_toList]
  · rename_i h
    rw [unquote_of_bare (by simpa using h), String.ofList_toList]

theorem bareOrQuoted_ne_nil (h : v ≠ "") : (bareOrQuoted v).toList ≠ [] := by
  intro he
  have hv := scalar_bareOrQuoted v
  rw [he] at hv
  exact h hv.symm

theorem flowList?_bareOrQuoted (v : String) : flowList? (bareOrQuoted v).toList = .ok none := by
  rw [toList_bareOrQuoted]
  split
  · rfl
  · rename_i h
    have hbare : needsQuotes v.toList = false := by simpa using h
    have hlead := (bare_spec hbare).2
    cases hv : v.toList with
    | nil => rfl
    | cons c cs =>
      have hc : c ≠ '[' := ne_of_not_leading (hlead c (by rw [hv]; rfl)) (by decide)
      unfold flowList?
      split
      · rename_i heq
        exact absurd (List.cons.inj heq).1 hc
      · rfl

theorem mem_quote (h : c ∈ quote cs) : c = '\'' ∨ c ∈ cs := by
  simp only [quote, List.cons_append, List.mem_cons, List.mem_append, List.mem_flatMap,
    List.not_mem_nil, or_false] at h
  rcases h with rfl | ⟨d, hd, hc⟩ | rfl
  · exact .inl rfl
  · by_cases hq : d = '\''
    · left
      simpa [hq] using hc
    · right
      obtain rfl : c = d := by simpa [hq] using hc
      exact hd
  · exact .inl rfl

theorem not_isBreak_quote (h : unbroken v = true) (hc : c ∈ quote v.toList) :
    isBreak c = false := by
  rcases mem_quote hc with rfl | hv
  · rfl
  · exact Text.unbroken_iff.mp h c hv

theorem unbroken_bareOrQuoted (h : unbroken v = true) : unbroken (bareOrQuoted v) = true := by
  rw [Text.unbroken_iff, toList_bareOrQuoted]
  intro c hc
  split at hc
  · exact not_isBreak_quote h hc
  · exact Text.unbroken_iff.mp h c hc

theorem mem_of_mem_collapse (h : c ∈ collapse a b b cs) : c ∈ cs := by
  fun_induction collapse a b b cs with
  | case1 e f cs he ih =>
    rcases List.mem_cons.mp h with rfl | h
    · simp [he.2]
    · simp [ih h]
  | case2 e f cs he ih =>
    rcases List.mem_cons.mp h with rfl | h
    · simp
    · exact List.mem_cons_of_mem _ (ih h)
  | case3 cs => exact h

theorem mem_of_mem_enclosed? {inner : List Char} (h : enclosed? q cs = some inner)
    (hc : c ∈ inner) : c ∈ cs := by
  cases cs with
  | nil => simp [enclosed?] at h
  | cons d cs =>
    simp only [enclosed?, Option.ite_none_right_eq_some, Option.some.injEq] at h
    obtain ⟨-, rfl⟩ := h
    exact List.mem_cons_of_mem _ (List.dropLast_subset _ hc)

theorem mem_of_mem_unquote (h : c ∈ unquote cs) : c ∈ cs := by
  unfold unquote at h
  split at h
  · rename_i hs
    exact mem_of_mem_enclosed? hs (mem_of_mem_collapse h)
  · split at h
    · rename_i hd
      exact mem_of_mem_enclosed? hd (mem_of_mem_collapse (mem_of_mem_collapse h))
    · exact h

theorem unbroken_scalar (h : ∀ c ∈ cs, isBreak c = false) : unbroken (scalar cs) = true := by
  rw [Text.unbroken_iff, scalar, String.toList_ofList]
  exact fun c hc => h c (mem_of_mem_unquote hc)

def DrawnFrom (cs : List Char) (items? : Option (List (List Char))) : Prop :=
  ∀ is, items? = some is → ∀ i ∈ is, ∀ c ∈ i, c ∈ cs

theorem DrawnFrom.consFirst {items? : Option (List (List Char))} (h : DrawnFrom cs items?)
    (d : Char) : DrawnFrom (d :: cs) (items?.map (consFirst d)) := by
  rintro is his i hi c hc
  obtain ⟨js, hjs, rfl⟩ := Option.map_eq_some_iff.mp his
  cases js with
  | nil =>
    obtain rfl : i = [d] := by simpa [RuleText.consFirst] using hi
    obtain rfl : c = d := by simpa using hc
    simp
  | cons j js =>
    rcases List.mem_cons.mp hi with rfl | hi
    · rcases List.mem_cons.mp hc with rfl | hc
      · simp
      · exact List.mem_cons_of_mem _ (h _ hjs j (by simp) c hc)
    · exact List.mem_cons_of_mem _ (h _ hjs i (by simp [hi]) c hc)

theorem DrawnFrom.newItem {items? : Option (List (List Char))} (h : DrawnFrom cs items?)
    (d : Char) : DrawnFrom (d :: cs) (items?.map ([] :: ·)) := by
  rintro is his i hi c hc
  obtain ⟨js, hjs, rfl⟩ := Option.map_eq_some_iff.mp his
  rcases List.mem_cons.mp hi with rfl | hi
  · simp at hc
  · exact List.mem_cons_of_mem _ (h _ hjs i hi c hc)

theorem drawnFrom_splitItems? (mode : ItemMode) (cs : List Char) :
    DrawnFrom cs (splitItems? mode cs) := by
  fun_induction splitItems? mode cs with
  | case1 | case2 =>
    rintro is his i hi c hc
    obtain rfl := Option.some.inj his
    obtain rfl : i = [] := by simpa using hi
    simp at hc
  | case3 | case4 => exact fun is his => nomatch his
  | case5 cs ih =>
    rw [← Option.map_map]
    exact (ih.consFirst _).consFirst _
  | case6 d cs _ ih => exact ih.consFirst d
  | case7 d cs ih =>
    rw [← Option.map_map]
    exact (ih.consFirst d).consFirst _
  | case8 d cs _ ih => exact ih.consFirst d
  | case9 => rename_i ih; exact ih.newItem _
  | case10 => rename_i ih; exact ih.consFirst _

theorem unbroken_of_mem_flowList? {items : List String} (hcs : ∀ c ∈ cs, isBreak c = false)
    (h : flowList? cs = .ok (some items)) : ∀ i ∈ items, unbroken i = true := by
  unfold flowList? at h
  split at h
  · rename_i cs
    split at h
    · dsimp only at h
      split at h
      · obtain rfl : [] = items := by simpa using h
        simp
      · split at h
        · rename_i is his
          obtain rfl := Option.some.inj (Except.ok.inj h)
          intro i hi
          obtain ⟨w, hw, rfl⟩ := List.mem_map.mp hi
          refine unbroken_scalar fun c hc => hcs c ?_
          have hinner := drawnFrom_splitItems? _ _ _ his w hw c (Text.mem_of_mem_trim hc)
          exact List.mem_cons_of_mem _ (List.dropLast_subset _ (Text.mem_of_mem_trim hinner))
        · cases h
    · cases h
  · cases h

end SigmaDesk.RuleText
