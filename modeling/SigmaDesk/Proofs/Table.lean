import SigmaDesk.Table

/-!
# Tables

What an insertion leaves in a table: a new key goes to the end, a known key keeps its place and only
its value is replaced. A table comes back from its own entries.
-/

namespace SigmaDesk.Table

variable {α : Type} {t : Table α} {k : String} {v w : α} {es : List (String × α)}

theorem contains_iff : t.contains k = true ↔ k ∈ t.keys := List.contains_iff_mem

theorem mem_put {e : String × α} (h : e ∈ put k v es) : e = (k, v) ∨ e ∈ es := by
  induction es with
  | nil => exact .inl (List.mem_singleton.mp h)
  | cons d es ih =>
    obtain ⟨k', v'⟩ := d
    rw [put] at h
    split at h
    · rcases List.mem_cons.mp h with rfl | h
      · exact .inl rfl
      · exact .inr (List.mem_cons_of_mem _ h)
    · rcases List.mem_cons.mp h with rfl | h
      · exact .inr List.mem_cons_self
      · exact (ih h).imp_right (List.mem_cons_of_mem _)

theorem mem_insert {e : String × α} (h : e ∈ (t.insert k v).entries) :
    e = (k, v) ∨ e ∈ t.entries := mem_put h

theorem put_of_not_mem (h : k ∉ es.map Prod.fst) : put k v es = es ++ [(k, v)] := by
  induction es with
  | nil => rfl
  | cons e es ih =>
    obtain ⟨k', v'⟩ := e
    obtain ⟨hne, hrest⟩ := not_or.mp (mt List.mem_cons.mpr h)
    rw [put, if_neg (Ne.symm hne), ih hrest, List.cons_append]

theorem entries_insert_of_not_mem (h : k ∉ t.keys) :
    (t.insert k v).entries = t.entries ++ [(k, v)] := put_of_not_mem h

def insertAll (t : Table α) (es : List (String × α)) : Table α :=
  es.foldl (fun t e => t.insert e.1 e.2) t

theorem entries_insertAll (h : (t.keys ++ es.map Prod.fst).Nodup) :
    (t.insertAll es).entries = t.entries ++ es := by
  induction es generalizing t with
  | nil => simp [insertAll]
  | cons e es ih =>
    obtain ⟨k, v⟩ := e
    have hk : k ∉ t.keys := fun hk =>
      (List.nodup_append.mp h).2.2 k hk k List.mem_cons_self rfl
    have hkeys : ((t.insert k v).keys ++ es.map Prod.fst).Nodup := by
      rw [keys_insert, if_neg hk]
      simpa using h
    have hrest := ih hkeys
    rw [entries_insert_of_not_mem hk, List.append_assoc] at hrest
    exact hrest

@[simp] theorem insertAll_entries (t : Table α) : empty.insertAll t.entries = t :=
  ext ((entries_insertAll (t := empty) t.distinct).trans (List.nil_append _))

theorem keys_insert_of_mem (h : k ∈ t.keys) : (t.insert k v).keys = t.keys := by
  rw [keys_insert, if_pos h]

theorem lookup_put_self : (put k v es).lookup k = some v := by
  induction es with
  | nil => simp [put]
  | cons e es ih =>
    obtain ⟨k', v'⟩ := e
    by_cases h : k' = k
    · simp [put, h]
    · have hbeq : (k == k') = false := by simpa using Ne.symm h
      simp [put, h, List.lookup_cons, hbeq, ih]

@[simp] theorem get?_insert_self : (t.insert k v).get? k = some v := lookup_put_self

theorem put_put : put k w (put k v es) = put k w es := by
  induction es with
  | nil => simp [put]
  | cons e es ih =>
    obtain ⟨k', v'⟩ := e
    by_cases h : k' = k
    · simp [put, h]
    · simp [put, h, ih]

theorem put_of_lookup (h : es.lookup k = some v) : put k v es = es := by
  induction es with
  | nil => cases h
  | cons e es ih =>
    obtain ⟨k', v'⟩ := e
    by_cases hk : k' = k
    · obtain rfl : v' = v := by simpa [List.lookup_cons, hk] using h
      simp [put, hk]
    · have hbeq : (k == k') = false := by simpa using Ne.symm hk
      rw [List.lookup_cons, hbeq] at h
      rw [put, if_neg hk, ih h]

theorem insert_of_get? (h : t.get? k = some v) : t.insert k v = t := ext (put_of_lookup h)

@[simp] theorem insert_insert : (t.insert k v).insert k w = t.insert k w := ext put_put

theorem lookup_put_of_ne {l : String} (h : l ≠ k) : (put k v es).lookup l = es.lookup l := by
  induction es with
  | nil =>
    have hbeq : (l == k) = false := by simpa using h
    simp [put, List.lookup_cons, hbeq]
  | cons e es ih =>
    obtain ⟨k', v'⟩ := e
    by_cases hk : k' = k
    · have hbeq : (l == k) = false := by simpa using h
      simp [put, hk, List.lookup_cons, hbeq]
    · simp [put, hk, List.lookup_cons, ih]

theorem get?_insert_of_ne {l : String} (h : l ≠ k) : (t.insert k v).get? l = t.get? l :=
  lookup_put_of_ne h

theorem lookup_filter_ne (l : String) : (es.filter (·.1 != k)).lookup l =
    if l = k then none else es.lookup l := by
  induction es with
  | nil => simp
  | cons e es ih =>
    obtain ⟨k', v'⟩ := e
    by_cases hk : k' = k
    · rw [List.filter_cons_of_neg (by simpa using hk), ih]
      split
      · rfl
      · rename_i hl
        have hbeq : (l == k') = false := by simpa [hk] using hl
        rw [List.lookup_cons, hbeq]
    · rw [List.filter_cons_of_pos (by simpa using hk), List.lookup_cons, List.lookup_cons, ih]
      by_cases hl : l = k'
      · simp [hl, hk]
      · have hbeq : (l == k') = false := by simpa using hl
        rw [hbeq]

theorem get?_erase (l : String) : (t.erase k).get? l = if l = k then none else t.get? l :=
  lookup_filter_ne l

theorem lookup_eq_none_iff : es.lookup k = none ↔ k ∉ es.map Prod.fst := by
  rw [List.lookup_eq_none_iff, List.mem_map]
  constructor
  · rintro h ⟨e, he, rfl⟩
    simpa using h e he
  · intro h e he
    rw [bne_iff_ne]
    rintro rfl
    exact h ⟨e, he, rfl⟩

theorem erase_of_get? (h : t.get? k = none) : t.erase k = t := by
  ext1
  refine List.filter_eq_self.mpr fun e he => bne_iff_ne.mpr ?_
  rintro rfl
  exact lookup_eq_none_iff.mp h (List.mem_map_of_mem he)

theorem length_flatten_put {β : Type} (k : String) (vs : List β) (es : List (String × List β)) :
    ((put k vs es).map Prod.snd).flatten.length + ((es.lookup k).getD []).length =
      (es.map Prod.snd).flatten.length + vs.length := by
  induction es with
  | nil => simp [put]
  | cons e es ih =>
    obtain ⟨k', vs'⟩ := e
    by_cases hk : k' = k
    · simp only [put, hk, if_true, List.map_cons, List.flatten_cons, List.length_append,
        List.lookup_cons, beq_self_eq_true, Option.getD_some]
      omega
    · have hbeq : (k == k') = false := by simpa using Ne.symm hk
      simp only [put, hk, if_false, List.map_cons, List.flatten_cons, List.length_append,
        List.lookup_cons, hbeq]
      omega

theorem length_flatten_insert {β : Type} (t : Table (List β)) (k : String) (vs : List β) :
    (t.insert k vs).values.flatten.length + ((t.get? k).getD []).length =
      t.values.flatten.length + vs.length := length_flatten_put k vs t.entries

@[simp] theorem ofList_entries (t : Table α) : ofList t.entries = t := insertAll_entries t

theorem keys_mapValues {β : Type} (f : α → β) (t : Table α) : (t.mapValues f).keys = t.keys := by
  simp [keys, entries_mapValues]

theorem mapValues_mapValues {β γ : Type} (f : α → β) (g : β → γ) (t : Table α) :
    (t.mapValues f).mapValues g = t.mapValues (g ∘ f) := by
  ext1
  simp [mapValues]

theorem map_put {β : Type} (f : α → β) (k : String) (v : α) (es : List (String × α)) :
    (put k v es).map (fun e => (e.1, f e.2)) = put k (f v) (es.map fun e => (e.1, f e.2)) := by
  induction es with
  | nil => rfl
  | cons e es ih =>
    simp only [put, List.map_cons]
    split <;> simp [ih]

theorem mapValues_insert {β : Type} (f : α → β) (t : Table α) (k : String) (v : α) :
    (t.insert k v).mapValues f = (t.mapValues f).insert k (f v) := ext (map_put f k v t.entries)

theorem mapValues_eq_self {f : α → α} (h : ∀ v, f v = v) (t : Table α) : t.mapValues f = t := by
  ext1
  simp [mapValues, h]

end SigmaDesk.Table
