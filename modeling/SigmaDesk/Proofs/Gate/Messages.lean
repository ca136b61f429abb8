import SigmaDesk.Gate
import SigmaDesk.Proofs.Occurrence
import SigmaDesk.Proofs.Table

/-!
# Messages by field

Every field that has a failure gets its messages in the order of the report, and no message is lost
or shown twice.
-/

namespace SigmaDesk.Report

variable {r : Report} {fs : List Failure} {f : Failure} {field : String}

theorem byField_concat (fs : List Failure) (f : Failure) :
    byField ⟨fs ++ [f]⟩ = (byField ⟨fs⟩).insert f.field
      (((byField ⟨fs⟩).get? f.field).getD [] ++ [f.message]) := by
  simp [byField]

theorem errorsFor_concat (fs : List Failure) (f : Failure) (field : String) :
    errorsFor ⟨fs ++ [f]⟩ field =
      errorsFor ⟨fs⟩ field ++ if f.field = field then [f.message] else [] := by
  by_cases h : f.field = field <;> simp [errorsFor, h]

theorem get?_byField (r : Report) (field : String) :
    r.byField.get? field = if r.errorsFor field = [] then none else some (r.errorsFor field) := by
  obtain ⟨fs⟩ := r
  induction fs using List.reverseRecOn with
  | nil => rfl
  | append_singleton fs f ih =>
    have hgetD : ((byField ⟨fs⟩).get? field).getD [] = errorsFor ⟨fs⟩ field := by
      rw [ih]
      split
      · rename_i h
        exact h.symm
      · rfl
    rw [byField_concat, errorsFor_concat]
    by_cases h : f.field = field
    · subst h
      simp [hgetD]
    · rw [Table.get?_insert_of_ne (Ne.symm h), ih]
      simp [h]

theorem keys_byField (r : Report) : r.byField.keys = (r.failures.map (·.field)).eraseDups := by
  obtain ⟨fs⟩ := r
  induction fs using List.reverseRecOn with
  | nil => rfl
  | append_singleton fs f ih =>
    rw [byField_concat, Table.keys_insert, ih, List.map_append, List.map_singleton,
      eraseDups_concat]
    simp only [List.mem_eraseDups]

theorem firstOccurrences_keys_byField (r : Report) :
    FirstOccurrences (r.failures.map (·.field)) (fun _ => True) r.byField.keys := by
  have h := firstOccurrences_filter (r.failures.map (·.field)) fun _ => true
  rw [keys_byField]
  simpa using h

theorem length_messages_byField (r : Report) :
    r.byField.values.flatten.length = r.failures.length := by
  obtain ⟨fs⟩ := r
  induction fs using List.reverseRecOn with
  | nil => rfl
  | append_singleton fs f ih =>
    have hlength := Table.length_flatten_insert (byField ⟨fs⟩) f.field
      (((byField ⟨fs⟩).get? f.field).getD [] ++ [f.message])
    rw [← byField_concat, ih] at hlength
    simp only [List.length_append, List.length_singleton] at hlength ⊢
    omega

end SigmaDesk.Report
