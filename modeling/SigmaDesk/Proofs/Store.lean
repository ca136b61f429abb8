import SigmaDesk.Proofs.Table
import SigmaDesk.Store

/-!
# What a store keeps

The store in memory gives a document back under the identifier that it answered, with that
identifier in it.
-/

namespace SigmaDesk.Store

variable {m : Memory} {fresh id : String} {q : Request}

theorem length_mintedId (bits : Nat) : (mintedId bits).length = 36 := by
  rw [mintedId, ← String.length_toList, String.toList_intercalate]
  simp [List.intercalate]

theorem mintedId_ne_empty (bits : Nat) : mintedId bits ≠ "" := by
  intro h
  have hlength := length_mintedId bits
  rw [h] at hlength
  cases hlength

namespace Memory

def after (m : Memory) (fresh : String) (qs : List Request) : Memory :=
  qs.foldl (fun m q => (m.write fresh q).2) m

theorem get?_keep (m : Memory) (id : String) (d : Document) :
    (m.keep id d).get? id = some (d.withId id) := Table.get?_insert_self

theorem write_update_empty (fresh id : String) (d : Document) :
    (({} : Memory).write fresh (.update id d)).1 = .refused ("Rule not found: " ++ id) := rfl

theorem get?_of_stored (h : (m.write fresh q).1 = .stored id) : id = q.target fresh ∧
    (m.write fresh q).2.get? id = some (q.document.withId id) := by
  cases q with
  | create d =>
    cases h
    exact ⟨rfl, m.get?_keep _ d⟩
  | update target d =>
    rw [write] at h ⊢
    split at h
    · rename_i hmem
      cases h
      rw [if_pos hmem]
      exact ⟨rfl, m.get?_keep _ d⟩
    · cases h

end Memory

end SigmaDesk.Store
