import SigmaDesk.Proofs.Store.Compaction

/-!
# Faithful publishing

Whatever the broker does, a client only adds to its log. A request leaves one message there unless
the broker refuses it, and the answer says what became of the message.
-/

namespace SigmaDesk.Store

variable {b : Broker} {w : Write} {reason : String}

/-- The message of a request on a topic. The rule in it is the document of the request but for its
identifier, which is the key. -/
structure Message.Tells (topic : String) (w : Write) (m : Message) : Prop where
  topic : m.topic = topic
  key : m.key = w.target
  payload : ∃ d : Document,
    m.payload = .object [("op", .text w.request.op), ("rule", d.value)] ∧
      d.get? "id" = some (.text m.key) ∧
      d.keys = (if "id" ∈ w.request.document.keys then w.request.document.keys
        else w.request.document.keys ++ ["id"]) ∧
      ∀ l, l ≠ "id" → d.get? l = w.request.document.get? l

theorem tells_message (k : Kafka) (w : Write) : (k.message w.fresh w.request).Tells k.topic w where
  topic := rfl
  key := rfl
  payload := by
    refine ⟨w.request.document.withId w.target, rfl, Table.get?_insert_self, ?_, ?_⟩
    · exact Table.keys_insert _ _ _
    · intro l hl
      exact Table.get?_insert_of_ne hl

def Message.entry (m : Message) : LogEntry := .produced m.topic m.key m.payload

@[simp] theorem message?_entry (m : Message) : m.entry.message? = some m := rfl

@[simp] theorem messages_entry (m : Message) : messages [m.entry] = [m] := rfl

def Message.op? (m : Message) : Option String :=
  match m.payload with
  | .object es =>
    match es.lookup "op" with
    | some (.text op) => some op
    | _ => none
  | _ => none

theorem Message.Tells.op {topic : String} {m : Message} (h : m.Tells topic w) :
    m.op? = some w.request.op := by
  obtain ⟨d, hpayload, -⟩ := h.payload
  simp [Message.op?, hpayload]

def createdKeys (log : List LogEntry) : List String :=
  ((messages log).filter (·.op? == some "create")).map (·.key)

theorem createdKeys_append (l₁ l₂ : List LogEntry) :
    createdKeys (l₁ ++ l₂) = createdKeys l₁ ++ createdKeys l₂ := by
  simp [createdKeys]

def lastKey? (log : List LogEntry) : Option String :=
  (log.getLast?.bind (·.message?)).map (·.key)

theorem lastKey?_entry (log : List LogEntry) (m : Message) :
    lastKey? (log ++ [m.entry]) = some m.key := by
  simp [lastKey?]

inductive Call
  | write (b : Broker) (w : Write)
  | ensureTopic (b : Broker) (partitions replication : Option Int)

def Call.write? : Call → Option Write
  | .write _ w => some w
  | .ensureTopic _ _ _ => none

def minted (cs : List Call) : List String := created (cs.filterMap (·.write?))

theorem minted_cons (c : Call) (cs : List Call) : minted (c :: cs) = minted [c] ++ minted cs := by
  cases c with
  | ensureTopic => rfl
  | write b w =>
    obtain ⟨fresh, d | ⟨id, d⟩⟩ := w <;> rfl

inductive Leaves (topic : String) : Call → List LogEntry → Prop
  | refused {b : Broker} {w : Write} (h : b.refusal ≠ none) : Leaves topic (.write b w) []
  | taken {b : Broker} {w : Write} {m : Message} (h : b.refusal = none) (hm : m.Tells topic w) :
    Leaves topic (.write b w) [m.entry]
  | unasked {b : Broker} {partitions replication : Option Int} :
    Leaves topic (.ensureTopic b partitions replication) []
  | asked {b : Broker} {partitions replication : Option Int} {e : LogEntry}
    (h : e.message? = none) : Leaves topic (.ensureTopic b partitions replication) [e]

theorem Leaves.message {topic : String} {c : Call} {es : List LogEntry} {m : Message}
    (h : Leaves topic c es) (hm : m ∈ messages es) :
    ∃ b w, c = .write b w ∧ b.refusal = none ∧ m.Tells topic w := by
  cases h with
  | refused => cases hm
  | taken h htells =>
    obtain rfl : m = _ := List.mem_singleton.mp hm
    exact ⟨_, _, rfl, h, htells⟩
  | unasked => cases hm
  | asked h => simp [messages, h] at hm

theorem Leaves.keys {topic : String} {c : Call} {es : List LogEntry}
    (h : Leaves topic c es) : (createdKeys es).Sublist (minted [c]) := by
  cases h with
  | refused => exact List.nil_sublist _
  | @taken b w m h htells =>
    have hop := htells.op
    have hkey := htells.key
    obtain ⟨fresh, d | ⟨id, d⟩⟩ := w
    · simp only [Request.op] at hop
      simp [createdKeys, hop, hkey, minted, created, Call.write?, Write.target,
        Request.target]
    · simp only [Request.op] at hop
      simp [createdKeys, hop]
  | unasked => exact List.nil_sublist _
  | asked h => simp [createdKeys, messages, h]

/-- What went wrong first: the broker refused the message, it was left waiting, or it is the first
delivery that failed. -/
inductive Fault (timedOut : String) (b : Broker) : String → Prop
  | refused {reason : String} (h : b.refusal = some reason) : Fault timedOut b reason
  | late (h : b.refusal = none) (hlate : 0 < b.pending) : Fault timedOut b timedOut
  | undelivered {reason : String} {pre post : List (Option String)} (h : b.refusal = none)
    (hflushed : b.pending ≤ 0) (hdeliveries : b.deliveries = pre ++ some reason :: post)
    (hpre : ∀ e ∈ pre, e = none) : Fault timedOut b reason

structure Answered (timedOut : String) (b : Broker) (o : Outcome) (log : List LogEntry) : Prop where
  stored (id : String) :
    o = .stored id ↔ b.refusal = none ∧ b.Delivers ∧ lastKey? log = some id
  refused (reason : String) : o = .refused reason ↔ Fault timedOut b reason
  settled (message : String) : o ≠ .broken message

namespace Kafka

def call (k : Kafka) : Call → Kafka
  | .write b w => (k.write b w.fresh w.request).2
  | .ensureTopic b partitions replication => (k.ensureTopic b partitions replication).2

def run (k : Kafka) (cs : List Call) : Kafka := cs.foldl call k

theorem log_write (k : Kafka) (b : Broker) (w : Write) :
    (k.write b w.fresh w.request).2.log = k.log ++
      if b.refusal.isSome then [] else [(k.message w.fresh w.request).entry] := by
  rw [write_eq_publish, client_publish]
  split
  · simp
  · rfl

theorem timeout_call (k : Kafka) (c : Call) :
    (k.call c).topic = k.topic ∧ (k.call c).timeout = k.timeout := by
  cases c with
  | write b w =>
    rw [call, write_eq_publish, client_publish]
    split <;> exact ⟨rfl, rfl⟩
  | ensureTopic b partitions replication =>
    rcases client_ensureTopic k b partitions replication with h | h <;>
      rw [call, h] <;> exact ⟨rfl, rfl⟩

theorem leaves_call (k : Kafka) (c : Call) :
    ∃ added, (k.call c).log = k.log ++ added ∧ Leaves k.topic c added := by
  cases c with
  | write b w =>
    refine ⟨_, log_write k b w, ?_⟩
    cases h : b.refusal with
    | some reason =>
      apply Leaves.refused
      simp [h]
    | none => exact .taken h (tells_message k w)
  | ensureTopic b partitions replication =>
    rcases client_ensureTopic k b partitions replication with h | h
    · refine ⟨[], ?_, .unasked⟩
      simp [call, h]
    · refine ⟨[k.topicEntry partitions replication], ?_, .asked rfl⟩
      simp [call, h, record]

theorem refused_iff (k : Kafka) (b : Broker) (w : Write) :
    (k.write b w.fresh w.request).1 = .refused reason ↔ Fault k.timedOut b reason := by
  rw [write_eq_publish, publish]
  constructor
  · intro h
    split at h
    · rename_i hrefusal
      cases h
      exact .refused hrefusal
    · rename_i hrefusal
      split at h
      · rename_i hlate
        cases h
        exact .late hrefusal hlate
      · rename_i hflushed
        split at h
        · rename_i hfirst
          cases h
          obtain ⟨pre, e, post, hdeliveries, rfl, hpre⟩ := List.findSome?_eq_some_iff.mp hfirst
          exact .undelivered hrefusal (Int.not_lt.mp hflushed) hdeliveries hpre
        · cases h
  · rintro (h | ⟨h, hlate⟩ | ⟨h, hflushed, hdeliveries, hpre⟩)
    · simp [h]
    · simp only [h, if_pos hlate]
      rfl
    · have hfirst : b.deliveries.findSome? (fun e => e) = some reason :=
        List.findSome?_eq_some_iff.mpr ⟨_, _, _, hdeliveries, rfl, hpre⟩
      simp [h, Int.not_lt.mpr hflushed, hfirst]

theorem answered_write (k : Kafka) (b : Broker) (w : Write) :
    Answered k.timedOut b (k.write b w.fresh w.request).1 (k.write b w.fresh w.request).2.log where
  stored id := by
    rcases outcome_write k b w.fresh w.request with ⟨hstored, htaken⟩ | ⟨⟨reason, hrefused⟩, hnot⟩
    · have hlast : lastKey? (k.write b w.fresh w.request).2.log = some w.target := by
        rw [log_write, htaken.1]
        exact lastKey?_entry k.log _
      simp only [hstored, hlast, htaken, true_and, Outcome.stored.injEq, Option.some.injEq]
      rfl
    · rw [hrefused]
      refine ⟨nofun, ?_⟩
      rintro ⟨hrefusal, hdelivers, -⟩
      exact absurd ⟨hrefusal, hdelivers⟩ hnot
  refused _ := refused_iff k b w
  settled message := by
    rcases outcome_write k b w.fresh w.request with ⟨h, -⟩ | ⟨⟨reason, h⟩, -⟩ <;> rw [h] <;> nofun

theorem timeout_run (k : Kafka) (cs : List Call) :
    (k.run cs).topic = k.topic ∧ (k.run cs).timeout = k.timeout := by
  induction cs generalizing k with
  | nil => exact ⟨rfl, rfl⟩
  | cons c cs ih =>
    obtain ⟨htopic, htimeout⟩ := timeout_call k c
    obtain ⟨hrun, hrun'⟩ := ih (k.call c)
    exact ⟨hrun.trans htopic, hrun'.trans htimeout⟩

theorem timedOut_run (k : Kafka) (cs : List Call) : (k.run cs).timedOut = k.timedOut := by
  obtain ⟨htopic, htimeout⟩ := timeout_run k cs
  unfold timedOut
  rw [htopic, htimeout]

theorem log_run (k : Kafka) (cs : List Call) : ∃ added, (k.run cs).log = k.log ++ added ∧
    (createdKeys added).Sublist (minted cs) ∧
    ∀ m ∈ messages added, ∃ b w, .write b w ∈ cs ∧ b.refusal = none ∧ m.Tells k.topic w := by
  induction cs generalizing k with
  | nil => exact ⟨[], (List.append_nil _).symm, .slnil, nofun⟩
  | cons c cs ih =>
    -- What this call adds stays there, as the calls after it only add more.
    obtain ⟨first, hfirst, hleaves⟩ := leaves_call k c
    obtain ⟨rest, hrest, hkeys, htold⟩ := ih (k.call c)
    refine ⟨first ++ rest, ?_, ?_, ?_⟩
    · rw [← List.append_assoc, ← hfirst]
      exact hrest
    · rw [createdKeys_append, minted_cons]
      exact hleaves.keys.append hkeys
    · intro m hm
      rw [messages_append, List.mem_append] at hm
      rcases hm with hm | hm
      · obtain ⟨b, w, rfl, htaken⟩ := hleaves.message hm
        exact ⟨b, w, List.mem_cons_self, htaken⟩
      · obtain ⟨b, w, hmem, htaken⟩ := htold m hm
        exact ⟨b, w, List.mem_cons_of_mem _ hmem, (timeout_call k c).1 ▸ htaken⟩

end Kafka

/-- After any calls, whatever the broker did, the log has what it had, and beyond that one message
for each request that the broker took, no two creations under one key. The next call adds what it
leaves, and a request is then answered with what became of its message. -/
theorem publishes_faithfully (k : Kafka) (cs : List Call) (hfresh : (minted cs).Nodup) :
    (∃ added, (k.run cs).log = k.log ++ added ∧ (createdKeys added).Nodup ∧
      ∀ m ∈ messages added, ∃ b w, .write b w ∈ cs ∧ b.refusal = none ∧ m.Tells k.topic w) ∧
    (∀ c, ∃ added, ((k.run cs).call c).log = (k.run cs).log ++ added ∧ Leaves k.topic c added) ∧
    ∀ b w, Answered k.timedOut b ((k.run cs).write b w.fresh w.request).1
      ((k.run cs).call (.write b w)).log := by
  refine ⟨?_, ?_, ?_⟩
  · obtain ⟨added, hlog, hkeys, htold⟩ := k.log_run cs
    exact ⟨added, hlog, hfresh.sublist hkeys, htold⟩
  · intro c
    rw [← (k.timeout_run cs).1]
    exact (k.run cs).leaves_call c
  · intro b w
    rw [← k.timedOut_run cs]
    exact (k.run cs).answered_write b w

def failing : Broker := { deliveries := [none, some "no leader", some "too large"] }

def troubled : List Call :=
  [.ensureTopic { topicAnswer := .refused topicAlreadyExists "exists" } (some 1) (some 1),
    .write { pending := 1, deliveries := [] } ⟨"a", .create .empty⟩,
    .write { refusal := some "queue full" } ⟨"b", .create .empty⟩,
    .write {} ⟨"c", .create (.ofList [("id", .text ""), ("title", .text "Shell start")])⟩]

theorem publishes_faithfully_troubled :
    (minted troubled).Nodup ∧ createdKeys (newClient.run troubled).log = ["a", "c"] ∧
      ((newClient.run troubled).write failing "" (.update "a" .empty)).1 = .refused "no leader" ∧
      ((newClient.run troubled).write {} "" (.update "a" .empty)).1 = .stored "a" := by
  have hfresh : (minted troubled).Nodup := by decide
  obtain ⟨-, -, hanswer⟩ := publishes_faithfully newClient troubled hfresh
  refine ⟨hfresh, by decide, ?_, ?_⟩
  · apply ((hanswer failing ⟨"", .update "a" .empty⟩).refused _).mpr
    have hdeliveries : failing.deliveries = [none] ++ some "no leader" :: [some "too large"] := rfl
    exact .undelivered rfl (by decide) hdeliveries (by simp)
  · apply ((hanswer {} ⟨"", .update "a" .empty⟩).stored _).mpr
    exact ⟨rfl, ⟨by decide, by decide⟩, by decide⟩

end SigmaDesk.Store
