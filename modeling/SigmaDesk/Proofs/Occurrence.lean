import Mathlib.Data.List.Basic
import Mathlib.Data.List.Induction

/-!
# First occurrences

A list without its repetitions: every value once, in the order in which the values first occur.
-/

namespace SigmaDesk

variable {xs ys : List String} {p : String → Prop}

/-- The values of a list that pass a test, each once, in the order in which they first occur. -/
structure FirstOccurrences (xs : List String) (p : String → Prop) (ys : List String) : Prop where
  mem : ∀ x, x ∈ ys ↔ x ∈ xs ∧ p x
  once : ys.Nodup
  order : ys.Pairwise fun x y => xs.idxOf x < xs.idxOf y

theorem eraseDups_concat (xs : List String) (x : String) :
    (xs ++ [x]).eraseDups = if x ∈ xs then xs.eraseDups else xs.eraseDups ++ [x] := by
  rw [List.eraseDups_append]
  by_cases h : x ∈ xs
  · simp [h, List.removeAll]
  · simp [h, List.removeAll, List.eraseDups_cons]

theorem pairwise_idxOf_eraseDups (xs : List String) :
    xs.eraseDups.Pairwise fun x y => xs.idxOf x < xs.idxOf y := by
  induction xs using List.reverseRecOn with
  | nil => simp
  | append_singleton xs x ih =>
    -- What occurs in the shorter list first occurs at the same place in the longer one.
    have hkept : xs.eraseDups.Pairwise fun y z => (xs ++ [x]).idxOf y < (xs ++ [x]).idxOf z := by
      refine ih.imp_of_mem fun {y z} hy hz hlt => ?_
      rwa [List.idxOf_append_of_mem (List.mem_eraseDups.mp hy),
        List.idxOf_append_of_mem (List.mem_eraseDups.mp hz)]
    rw [eraseDups_concat]
    split
    · exact hkept
    · rename_i hnew
      refine List.pairwise_append.mpr ⟨hkept, List.pairwise_singleton _ _, ?_⟩
      intro y hy z hz
      have hmem := List.mem_eraseDups.mp hy
      rw [List.mem_singleton.mp hz, List.idxOf_append_of_mem hmem,
        List.idxOf_append_of_notMem hnew]
      exact Nat.lt_add_right _ (List.idxOf_lt_length_of_mem hmem)

theorem firstOccurrences_filter (xs : List String) (p : String → Bool) :
    FirstOccurrences xs (p · = true) (xs.eraseDups.filter p) := by
  have horder := (pairwise_idxOf_eraseDups xs).sublist (List.filter_sublist (p := p))
  refine ⟨fun x => by simp, horder.imp fun hlt heq => ?_, horder⟩
  exact Nat.lt_irrefl _ (heq ▸ hlt)

end SigmaDesk
