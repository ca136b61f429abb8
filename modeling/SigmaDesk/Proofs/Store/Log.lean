import SigmaDesk.Store.Kafka

/-!
# What is published

A request leaves one message at the broker, unless the broker refuses it. The request is met exactly
if the broker takes the message and then delivers it.
-/

namespace SigmaDesk.Store

variable {k : Kafka} {b : Broker} {q : Request} {fresh id act : String} {d : Document}
  {partitions replication : Option Int}

structure Message where
  topic : String
  key : String
  payload : Value

def LogEntry.message? : LogEntry → Option Message
  | .produced topic key payload => some ⟨topic, key, payload⟩
  | _ => none

def messages (log : List LogEntry) : List Message := log.filterMap (·.message?)

@[simp] theorem messages_append (l₁ l₂ : List LogEntry) :
    messages (l₁ ++ l₂) = messages l₁ ++ messages l₂ := List.filterMap_append

def Request.op : Request → String
  | .create _ => "create"
  | .update _ _ => "update"

def Kafka.message (k : Kafka) (fresh : String) (q : Request) : Message :=
  ⟨k.topic, q.target fresh, payload q.op (q.target fresh) q.document⟩

structure Broker.Delivers (b : Broker) : Prop where
  flushed : b.pending ≤ 0
  delivered : ∀ e ∈ b.deliveries, e = none

namespace Kafka

theorem write_eq_publish (k : Kafka) (b : Broker) (fresh : String) (q : Request) :
    k.write b fresh q = k.publish b q.op (q.target fresh) q.document := by
  cases q <;> rfl

theorem client_publish : (k.publish b act id d).2 =
    if b.refusal.isSome then k else k.record (.produced k.topic id (payload act id d)) := by
  unfold publish
  cases b.refusal with
  | some reason => rfl
  | none =>
    dsimp only
    split
    · rfl
    · split <;> rfl

theorem delivered_iff : b.deliveries.findSome? (fun e => e) = none ↔ ∀ e ∈ b.deliveries, e = none :=
  List.findSome?_eq_none_iff

/-- A request is met exactly if its message is taken and delivered, and refused otherwise. -/
theorem outcome_publish (k : Kafka) (b : Broker) (act id : String) (d : Document) :
    (k.publish b act id d).1 = .stored id ∧ b.refusal = none ∧ b.Delivers ∨
    (∃ reason, (k.publish b act id d).1 = .refused reason) ∧ ¬(b.refusal = none ∧ b.Delivers) := by
  unfold publish
  cases b.refusal with
  | some reason => exact .inr ⟨⟨reason, rfl⟩, by simp⟩
  | none =>
    dsimp only
    split
    · rename_i hpending
      exact .inr ⟨⟨_, rfl⟩, fun h => Int.not_le.mpr hpending h.2.flushed⟩
    · rename_i hpending
      split
      · rename_i reason hreason
        refine .inr ⟨⟨_, rfl⟩, fun h => ?_⟩
        rw [delivered_iff.mpr h.2.delivered] at hreason
        cases hreason
      · rename_i hnone
        exact .inl ⟨rfl, rfl, Int.not_lt.mp hpending, delivered_iff.mp hnone⟩

theorem outcome_write (k : Kafka) (b : Broker) (fresh : String) (q : Request) :
    (k.write b fresh q).1 = .stored (q.target fresh) ∧ b.refusal = none ∧ b.Delivers ∨
    (∃ reason, (k.write b fresh q).1 = .refused reason) ∧ ¬(b.refusal = none ∧ b.Delivers) := by
  rw [write_eq_publish]
  exact outcome_publish k b q.op (q.target fresh) q.document

theorem stored_of_delivers (k : Kafka) (hb : b.refusal = none ∧ b.Delivers) (fresh : String)
    (q : Request) : (k.write b fresh q).1 = .stored (q.target fresh) := by
  rcases outcome_write k b fresh q with ⟨hstored, -⟩ | ⟨-, hnot⟩
  · exact hstored
  · exact absurd hb hnot

theorem messages_record (k : Kafka) (e : LogEntry) :
    messages (k.record e).log = messages k.log ++ e.message?.toList := by
  rw [record, messages_append]
  cases he : e.message? <;> simp [messages, he]

theorem messages_write (k : Kafka) (b : Broker) (fresh : String) (q : Request) :
    messages (k.write b fresh q).2.log =
      messages k.log ++ if b.refusal.isSome then [] else [k.message fresh q] := by
  rw [write_eq_publish, client_publish]
  split
  · simp
  · exact messages_record k _

theorem topic_write (k : Kafka) (b : Broker) (fresh : String) (q : Request) :
    (k.write b fresh q).2.topic = k.topic := by
  rw [write_eq_publish, client_publish]
  split <;> rfl

theorem message_write (k : Kafka) (b : Broker) (fresh fresh' : String) (q q' : Request) :
    (k.write b fresh q).2.message fresh' q' = k.message fresh' q' := by
  rw [message, topic_write]
  rfl

theorem client_ensureTopic (k : Kafka) (b : Broker) (partitions replication : Option Int) :
    (k.ensureTopic b partitions replication).2 = k ∨
      (k.ensureTopic b partitions replication).2 =
        k.record (k.topicEntry partitions replication) := by
  unfold ensureTopic
  cases b.topicFault k.topic partitions replication with
  | some f => exact .inl rfl
  | none =>
    refine .inr ?_
    cases b.topicAnswer with
    | created => rfl
    | none => rfl
    | refused code text =>
      dsimp only
      split <;> rfl

theorem messages_ensureTopic (k : Kafka) (b : Broker) (partitions replication : Option Int) :
    messages (k.ensureTopic b partitions replication).2.log = messages k.log := by
  rcases client_ensureTopic k b partitions replication with h | h
  · rw [h]
  · rw [h, messages_record]
    exact List.append_nil _

theorem topic_ensureTopic (k : Kafka) (b : Broker) (partitions replication : Option Int) :
    (k.ensureTopic b partitions replication).2.topic = k.topic := by
  rcases client_ensureTopic k b partitions replication with h | h <;> rw [h]
  rfl

end Kafka

end SigmaDesk.Store
