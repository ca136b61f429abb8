import Mathlib.Data.List.Nodup
import Mathlib.Data.List.Perm.Subperm
import Std.Data.String.ToNat
import SigmaDesk.Proofs.Edit

/-!
# Names of selections

An added selection that is given no name gets the first free one of a fixed series, which is soon
found: a record with `n` selections cannot take `n + 1` names.
-/

namespace SigmaDesk

variable {r r' : Record} {e : Edit} {taken : List String} {m n tries : Nat}

namespace Record

/-- The search for a free name from a number on: one number is tried after the other, each try looks
whether the name is taken, and the first that is free ends it. -/
inductive Searches (taken : List String) : (start tries found : Nat) → Prop
  | free {n : Nat} (h : selectionName n ∉ taken) : Searches taken n 1 n
  | next {n tries m : Nat} (h : selectionName n ∈ taken) (rest : Searches taken (n + 1) tries m) :
    Searches taken n (tries + 1) m

theorem Searches.spec (h : Searches taken n tries m) : n ≤ m ∧ selectionName m ∉ taken ∧
    ∀ k, n ≤ k → k < m → selectionName k ∈ taken := by
  induction h with
  | free h => exact ⟨Nat.le_refl _, h, fun k hle hlt => absurd hlt (Nat.not_lt.mpr hle)⟩
  | @next n _ _ htaken _ ih =>
    obtain ⟨hle, hfree, hbefore⟩ := ih
    refine ⟨by omega, hfree, fun k hk hlt => ?_⟩
    rcases Nat.eq_or_lt_of_le hk with rfl | hk
    · exact htaken
    · exact hbefore k hk hlt

theorem selectionName_injective : Function.Injective selectionName := by
  intro m n h
  exact Nat.repr_injective ((String.append_right_inj "Selection_").mp h)

/-- A series of names that are all taken is no longer than the list of names that are. -/
theorem le_length_of_taken (h : ∀ k, n ≤ k → k < n + tries → selectionName k ∈ taken) :
    tries ≤ taken.length := by
  have hnodup : ((List.range' n tries).map selectionName).Nodup :=
    List.Nodup.map selectionName_injective (List.nodup_range' 1)
  have hsubset : (List.range' n tries).map selectionName ⊆ taken := by
    intro name hname
    obtain ⟨k, hk, rfl⟩ := List.mem_map.mp hname
    obtain ⟨hle, hlt⟩ := List.mem_range'_1.mp hk
    exact h k hle hlt
  simpa using (hnodup.subperm hsubset).length_le

theorem exists_free (taken : List String) (n : Nat) :
    ∃ m, n ≤ m ∧ m ≤ n + taken.length ∧ selectionName m ∉ taken := by
  by_contra hnone
  have hall : ∀ k, n ≤ k → k < n + (taken.length + 1) → selectionName k ∈ taken := by
    intro k hle hlt
    by_contra hfree
    exact hnone ⟨k, hle, by omega, hfree⟩
  exact Nat.not_succ_le_self _ (le_length_of_taken hall)

theorem searches_firstFree (h : ∃ m, n ≤ m ∧ m ≤ n + tries ∧ selectionName m ∉ taken) :
    ∃ k ≤ tries + 1, Searches taken n k (firstFree taken tries n) := by
  obtain ⟨m, hle, hreach, hfree⟩ := h
  induction tries generalizing n with
  | zero =>
    obtain rfl : m = n := by omega
    exact ⟨1, Nat.le_refl _, .free hfree⟩
  | succ tries ih =>
    rw [firstFree]
    by_cases htaken : selectionName n ∈ taken
    · have hne : n ≠ m := by
        rintro rfl
        exact hfree htaken
      obtain ⟨k, hk, hsearch⟩ := ih (n := n + 1) (by omega) (by omega)
      rw [if_pos (List.contains_iff_mem.mpr htaken)]
      exact ⟨k + 1, by omega, .next htaken hsearch⟩
    · rw [if_neg (by simpa using htaken)]
      exact ⟨1, by omega, .free htaken⟩

theorem searches_nextSelectionName (r : Record) : ∃ n, ∃ tries ≤ r.selections.length + 1,
    Searches r.selectionNames 1 tries n ∧ r.nextSelectionName = selectionName n := by
  have hlength : r.selectionNames.length = r.selections.length := List.length_map ..
  obtain ⟨tries, htries, hsearch⟩ := searches_firstFree (hlength ▸ exists_free r.selectionNames 1)
  exact ⟨_, tries, htries, hsearch, rfl⟩

theorem nextSelectionName_not_mem (r : Record) : r.nextSelectionName ∉ r.selectionNames := by
  obtain ⟨n, tries, -, hsearch, hname⟩ := searches_nextSelectionName r
  exact hname ▸ hsearch.spec.2.1

end Record

namespace Edit

theorem apply_addSelection_unnamed {name : Option String} (h : name.getD "" = "") :
    (addSelection name).apply r =
      .ok { r with selections := r.selections ++ [{ name := r.nextSelectionName }] } := by
  have hname : newName r name = r.nextSelectionName := by
    cases name with
    | none => rfl
    | some name =>
      obtain rfl : name = "" := h
      rfl
  have hfree : (r.selection? r.nextSelectionName).isSome = false := by
    rw [Bool.eq_false_iff]
    exact fun hsome => r.nextSelectionName_not_mem ((isSome_selection? r _).mp hsome)
  simp [apply, hname, hfree]

def Renames : Edit → Prop
  | .renameSelection _ _ => True
  | _ => False

theorem names_modifySelection {i : Int} {g : Selection → Selection}
    (h : r.modifySelection i g = .ok r') (hg : ∀ s, (g s).name = s.name) :
    r'.selectionNames = r.selectionNames := by
  obtain ⟨n, -, rfl⟩ := Record.modifySelection_eq_ok_iff.mp h
  exact Record.names_modify r.selections n hg

/-- An edit that does not rename keeps the names, takes some out, or adds one that is new. -/
theorem names_apply (hr : ¬e.Renames) (he : e.apply r = .ok r') :
    r'.selectionNames.Sublist r.selectionNames ∨
      ∃ name ∉ r.selectionNames, r'.selectionNames = r.selectionNames ++ [name] := by
  cases e with
  | renameSelection => exact absurd trivial hr
  | addSelection name =>
    rw [apply] at he
    split at he
    · cases he
    · rename_i htaken
      cases he
      -- The edit is not refused, so no selection has the name.
      refine .inr ⟨newName r name, fun hmem => htaken ?_, by simp [Record.selectionNames]⟩
      exact (isSome_selection? r _).mpr hmem
  | removeSelection i =>
    simp only [apply, removeAt] at he
    cases hi : place? r.selections.length i with
    | none => simp [hi] at he
    | some n =>
      simp only [hi, Except.ok.injEq] at he
      subst he
      exact .inl ((List.eraseIdx_sublist _ n).map _)
  | setSelectionKey i key => exact .inl (names_modifySelection he (fun _ => rfl) ▸ .refl _)
  | setSelectionValue i value => exact .inl (names_modifySelection he (fun _ => rfl) ▸ .refl _)
  | setSelectionList i values => exact .inl (names_modifySelection he (fun _ => rfl) ▸ .refl _)
  | setMatchStyle i style =>
    rw [apply] at he
    split at he
    · cases he
    · cases he
    · exact .inl (names_modifySelection he (fun _ => rfl) ▸ .refl _)
  | setText f value =>
    cases he
    cases f <;> exact .inl (.refl _)
  | addItem f value =>
    cases he
    cases f <;> exact .inl (.refl _)
  | setItem f i value =>
    rw [apply] at he
    split at he
    · cases he
      cases f <;> exact .inl (.refl _)
    · cases he
  | removeItem f i =>
    rw [apply] at he
    split at he
    · cases he
      cases f <;> exact .inl (.refl _)
    · cases he
  | addConditionTerm name =>
    rw [apply] at he
    split at he
    · cases he
      exact .inl (.refl _)
    · cases he
  | removeConditionTerm i =>
    rw [apply] at he
    split at he
    · cases he
      exact .inl (.refl _)
    · cases he

theorem distinct_apply (h : r.selectionNames.Nodup) (hr : ¬e.Renames) (he : e.apply r = .ok r') :
    r'.selectionNames.Nodup := by
  rcases names_apply hr he with hsub | ⟨name, hnew, hnames⟩
  · exact h.sublist hsub
  · rw [hnames]
    exact List.nodup_append.mpr ⟨h, List.nodup_singleton _, by
      rintro a ha b hb rfl
      exact hnew (List.mem_singleton.mp hb ▸ ha)⟩

end Edit

end SigmaDesk
