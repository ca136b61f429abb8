import SigmaDesk.Proofs.Occurrence
import SigmaDesk.Proofs.Store
import SigmaDesk.Proofs.Store.Log

/-!
# The log compacted

A compacted topic keeps the last message of every key. Its rules are the documents of a store in
memory that was asked for the same, in the same order.
-/

namespace SigmaDesk

namespace Table

variable {α β : Type}

/-- The last value of every key, the keys in the order in which they first came. -/
def latest (es : List (String × α)) : List (String × α) :=
  (es.map Prod.fst).eraseDups.filterMap fun k => (es.reverse.lookup k).map (k, ·)

theorem ofList_concat (es : List (String × α)) (k : String) (v : α) :
    ofList (es ++ [(k, v)]) = (ofList es).insert k v := by
  simp [ofList]

theorem keys_ofList (es : List (String × α)) :
    (ofList es).keys = (es.map Prod.fst).eraseDups := by
  induction es using List.reverseRecOn with
  | nil => rfl
  | append_singleton es e ih =>
    obtain ⟨k, v⟩ := e
    have hmem : k ∈ (es.map Prod.fst).eraseDups ↔ k ∈ es.map Prod.fst := List.mem_eraseDups
    rw [ofList_concat, keys_insert, ih, List.map_append, List.map_singleton, eraseDups_concat]
    simp only [hmem]

theorem get?_ofList (es : List (String × α)) (k : String) :
    (ofList es).get? k = es.reverse.lookup k := by
  induction es using List.reverseRecOn with
  | nil => rfl
  | append_singleton es e ih =>
    obtain ⟨l, v⟩ := e
    rw [ofList_concat, List.reverse_append, List.reverse_singleton, List.singleton_append,
      List.lookup_cons]
    by_cases h : k = l
    · simp [h]
    · have hbeq : (k == l) = false := by simpa using h
      rw [get?_insert_of_ne h, hbeq, ih]

theorem filterMap_lookup {es : List (String × α)} (h : (es.map Prod.fst).Nodup) :
    (es.map Prod.fst).filterMap (fun k => (es.lookup k).map (k, ·)) = es := by
  induction es with
  | nil => rfl
  | cons e es ih =>
    obtain ⟨k, v⟩ := e
    obtain ⟨hk, hrest⟩ := List.nodup_cons.mp h
    have hlater : (es.map Prod.fst).filterMap (fun l => (((k, v) :: es).lookup l).map (l, ·)) =
        (es.map Prod.fst).filterMap fun l => (es.lookup l).map (l, ·) := by
      refine List.filterMap_congr fun l hl => ?_
      have hne : (l == k) = false := beq_false_of_ne fun he => hk (he ▸ hl)
      rw [List.lookup_cons, hne]
    rw [List.map_cons, List.filterMap_cons_some (b := (k, v)) (by simp), hlater, ih hrest]

theorem latest_eq (es : List (String × α)) : latest es = (ofList es).entries := by
  have h := filterMap_lookup (ofList es).distinct
  rw [← h, latest, ← keys_ofList]
  simp only [← get?_ofList]
  rfl

theorem mapValues_ofList (f : α → β) (es : List (String × α)) :
    (ofList es).mapValues f = ofList (es.map fun e => (e.1, f e.2)) := by
  induction es using List.reverseRecOn with
  | nil => rfl
  | append_singleton es e ih =>
    rw [ofList_concat, mapValues_insert, ih, List.map_append]
    exact (ofList_concat ..).symm

end Table

def Document.value (d : Document) : Value := .object d.entries

namespace Store

/-- A request, with the identifier that is minted if it is a creation. -/
structure Write where
  fresh : String
  request : Request

def Write.target (w : Write) : String := w.request.target w.fresh

def Write.kept (w : Write) : String × Document :=
  (w.target, w.request.document.withId w.target)

def Memory.writeAll (m : Memory) : List Write → List Outcome × Memory
  | [] => ([], m)
  | w :: ws =>
    let done := m.write w.fresh w.request
    let rest := done.2.writeAll ws
    (done.1 :: rest.1, rest.2)

def Kafka.writeAll (k : Kafka) : List (Broker × Write) → List Outcome × Kafka
  | [] => ([], k)
  | (b, w) :: ws =>
    let done := k.write b w.fresh w.request
    let rest := done.2.writeAll ws
    (done.1 :: rest.1, rest.2)

def created : List Write → List String
  | [] => []
  | ⟨fresh, .create _⟩ :: ws => fresh :: created ws
  | ⟨_, .update _ _⟩ :: ws => created ws

/-- Every update is of an identifier that is known or was created before. -/
def Aimed (known : List String) : List Write → Prop
  | [] => True
  | ⟨fresh, .create _⟩ :: ws => Aimed (fresh :: known) ws
  | ⟨_, .update id _⟩ :: ws => id ∈ known ∧ Aimed known ws

variable {m : Memory} {k : Kafka} {b : Broker} {w : Write} {ws : List Write}
  {bs : List (Broker × Write)} {known : List String} {id fresh : String} {d : Document}

namespace Memory

theorem mem_keys_keep {l : String} :
    l ∈ (m.keep id d).documents.keys ↔ l ∈ m.documents.keys ∨ l = id := by
  rw [keep, Table.keys_insert]
  split
  · rename_i h
    exact ⟨.inl, fun hl => hl.elim (fun hl => hl) fun he => he ▸ h⟩
  · simp

theorem write_update_of_mem (h : id ∈ m.documents.keys) :
    m.write fresh (.update id d) = (.stored id, m.keep id d) := by
  rw [write, if_pos (Table.contains_iff.mpr h)]

theorem write_update_of_not_mem (h : id ∉ m.documents.keys) :
    m.write fresh (.update id d) = (.refused ("Rule not found: " ++ id), m) := by
  rw [write, if_neg (mt Table.contains_iff.mp h)]

/-- Requests that are aimed at what the store has, or creates, are all met, and each is kept. -/
theorem writeAll_aimed (hknown : ∀ id ∈ known, id ∈ m.documents.keys) (h : Aimed known ws) :
    m.writeAll ws =
      (ws.map fun w => .stored w.target, ⟨m.documents.insertAll (ws.map (·.kept))⟩) := by
  -- No document is ever dropped, so what is known at one request is there at all later ones.
  induction ws generalizing m known with
  | nil => rfl
  | cons w ws ih =>
    obtain ⟨fresh, d | ⟨id, d⟩⟩ := w
    · have hstep : ∀ id ∈ fresh :: known, id ∈ (m.keep fresh d).documents.keys := by
        intro id hid
        rw [mem_keys_keep]
        rcases List.mem_cons.mp hid with rfl | hid
        · exact .inr rfl
        · exact .inl (hknown id hid)
      simp only [writeAll, write, ih hstep h]
      rfl
    · have hstep : ∀ l ∈ known, l ∈ (m.keep id d).documents.keys :=
        fun l hl => mem_keys_keep.mpr (.inl (hknown l hl))
      simp only [writeAll, write_update_of_mem (hknown id h.1), ih hstep h.2]
      rfl

theorem mem_keys_writeAll : id ∈ (m.writeAll ws).2.documents.keys ↔
    id ∈ m.documents.keys ∨ id ∈ created ws := by
  induction ws generalizing m with
  | nil => simp [writeAll, created]
  | cons w ws ih =>
    obtain ⟨fresh, d | ⟨target, d⟩⟩ := w
    · simp only [writeAll, write, ih, mem_keys_keep, created, List.mem_cons, or_assoc]
    · by_cases hmem : target ∈ m.documents.keys
      · have hkeep : id ∈ (m.keep target d).documents.keys ↔ id ∈ m.documents.keys := by
          rw [keep, Table.keys_insert_of_mem hmem]
        simp only [writeAll, write_update_of_mem hmem, ih, hkeep, created]
      · simp only [writeAll, write_update_of_not_mem hmem, ih, created]

def Labelled (m : Memory) : Prop :=
  ∀ e ∈ m.documents.entries, e.2.get? "id" = some (.text e.1)

theorem labelled_empty : ({} : Memory).Labelled := fun _ h => absurd h List.not_mem_nil

theorem Labelled.write (h : m.Labelled) (fresh : String) (q : Request) :
    (m.write fresh q).2.Labelled := by
  have hkeep (id : String) (d : Document) : (m.keep id d).Labelled := by
    intro e he
    rcases Table.mem_insert he with rfl | he
    · exact Table.get?_insert_self
    · exact h e he
  cases q with
  | create d => exact hkeep fresh d
  | update id d =>
    rw [Memory.write]
    split
    · exact hkeep id d
    · exact h

theorem Labelled.writeAll (h : m.Labelled) (ws : List Write) : (m.writeAll ws).2.Labelled := by
  induction ws generalizing m with
  | nil => exact h
  | cons w ws ih => exact ih (h.write w.fresh w.request)

end Memory

def Message.rule? (m : Message) : Option Value :=
  match m.payload with
  | .object es => es.lookup "rule"
  | _ => none

/-- What a compacted topic keeps: the rule of the last message of every key, the keys in the order
of their first messages. -/
def compacted (log : List LogEntry) : List (String × Value) :=
  Table.latest ((messages log).filterMap fun m => m.rule?.map (m.key, ·))

namespace Kafka

theorem writeAll_delivered (h : ∀ e ∈ bs, e.1.refusal = none ∧ e.1.Delivers) :
    (k.writeAll bs).1 = bs.map (fun e => .stored e.2.target) ∧
      messages (k.writeAll bs).2.log =
        messages k.log ++ bs.map (fun e => k.message e.2.fresh e.2.request) := by
  induction bs generalizing k with
  | nil => simp [writeAll]
  | cons e bs ih =>
    obtain ⟨b, w⟩ := e
    obtain ⟨hb, hbs⟩ := List.forall_mem_cons.mp h
    obtain ⟨hids, hlog⟩ := ih (k := (k.write b w.fresh w.request).2) hbs
    refine ⟨?_, ?_⟩
    · show (k.write b w.fresh w.request).1 :: _ = _
      rw [hids, stored_of_delivers k hb]
      rfl
    · refine hlog.trans ?_
      rw [messages_write, hb.1]
      simp [message_write]

theorem rule?_message (k : Kafka) (w : Write) :
    (k.message w.fresh w.request).rule? = some w.kept.2.value := rfl

end Kafka

/-- On brokers that take and deliver everything, a run leaves a topic that is compacted to the
documents of the store in memory. -/
theorem compacted_writeAll (hlog : messages k.log = [])
    (h : ∀ e ∈ bs, e.1.refusal = none ∧ e.1.Delivers) :
    compacted (k.writeAll bs).2.log =
      ((Table.ofList ((bs.map Prod.snd).map (·.kept))).mapValues Document.value).entries := by
  have hrules : (messages (k.writeAll bs).2.log).filterMap (fun m => m.rule?.map (m.key, ·)) =
      ((bs.map Prod.snd).map (·.kept)).map fun e => (e.1, e.2.value) := by
    rw [(Kafka.writeAll_delivered h).2, hlog, List.nil_append, List.filterMap_map]
    simp only [Function.comp_def, Kafka.rule?_message]
    simp only [Option.map_some, List.filterMap_eq_map', List.map_map]
    rfl
  rw [compacted, hrules, Table.latest_eq]
  exact congrArg Table.entries (Table.mapValues_ofList Document.value _).symm

/-- Run on the same requests, a client on brokers that take and deliver everything and a store in
memory that is empty agree when every update is of an identifier that was created: they answer
alike, and the topic is compacted to the documents in memory, each of which carries its identifier.
An update of an identifier that was not created is refused in memory, and changes nothing. -/
theorem compacted_eq_documents (hlog : messages k.log = [])
    (h : ∀ e ∈ bs, e.1.refusal = none ∧ e.1.Delivers) :
    let onTopic := k.writeAll bs
    let inMemory := ({} : Memory).writeAll (bs.map Prod.snd)
    (Aimed [] (bs.map Prod.snd) →
      onTopic.1 = (bs.map fun e => .stored e.2.target) ∧ inMemory.1 = onTopic.1 ∧
        compacted onTopic.2.log =
          (inMemory.2.documents.mapValues Document.value).entries ∧
        ∀ e ∈ inMemory.2.documents.entries, e.2.get? "id" = some (.text e.1)) ∧
      ∀ id ∉ created (bs.map Prod.snd), ∀ fresh d, inMemory.2.write fresh (.update id d) =
        (.refused ("Rule not found: " ++ id), inMemory.2) := by
  intro onTopic inMemory
  refine ⟨fun haimed => ?_, fun id hid fresh d => ?_⟩
  · have hids := (Kafka.writeAll_delivered (k := k) h).1
    have hmemory : inMemory = _ :=
      Memory.writeAll_aimed (fun _ h => absurd h List.not_mem_nil) haimed
    refine ⟨hids, ?_, ?_, Memory.labelled_empty.writeAll _⟩
    · rw [hmemory, hids, List.map_map]
      rfl
    · rw [compacted_writeAll hlog h, hmemory]
      rfl
  · refine Memory.write_update_of_not_mem fun hmem => ?_
    rcases Memory.mem_keys_writeAll.mp hmem with hempty | hcreated
    · cases hempty
    · exact hid hcreated

def revised : List (Broker × Write) :=
  [({}, ⟨"a", .create .empty⟩), ({}, ⟨"b", .create .empty⟩),
    ({}, ⟨"", .update "a" (.ofList [("title", .text "Edited")])⟩)]

def newClient : Kafka := .connect none Kafka.defaultTopic Kafka.defaultTimeout

theorem compacted_revised :
    (messages newClient.log = [] ∧ ∀ e ∈ revised, e.1.refusal = none ∧ e.1.Delivers) ∧
      compacted (newClient.writeAll revised).2.log =
        [("a", .object [("title", .text "Edited"), ("id", .text "a")]),
          ("b", .object [("id", .text "b")])] := by
  have hlog : messages newClient.log = [] := rfl
  have hbroker : ∀ e ∈ revised, e.1.refusal = none ∧ e.1.Delivers := by
    have htaken : ({} : Broker).refusal = none ∧ ({} : Broker).Delivers :=
      ⟨rfl, by decide, by decide⟩
    simpa [revised] using htaken
  have haimed : Aimed [] (revised.map Prod.snd) :=
    ⟨List.mem_cons_of_mem _ List.mem_cons_self, trivial⟩
  obtain ⟨-, -, hcompacted, -⟩ := (compacted_eq_documents hlog hbroker).1 haimed
  exact ⟨⟨hlog, hbroker⟩, hcompacted.trans rfl⟩

end Store

end SigmaDesk
