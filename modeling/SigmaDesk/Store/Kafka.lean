import SigmaDesk.External
import SigmaDesk.Store
import SigmaDesk.Value.Json

/-!
# The compacted topic

Publishes each document as one message on a topic that is keyed by rule and compacted, so that the
last message of a key is the rule in force. Nothing is retried. What happened at the broker is kept
as a log.
-/

namespace SigmaDesk.Store

def topicAlreadyExists : Int := 36

/-- Servers and counts are missing where an option was given no value. -/
inductive LogEntry
  | connected (servers : Option String)
  | topicCreated (topic : String) (servers : Option String) (partitions replication : Option Int)
  | produced (topic key : String) (payload : Value)

inductive TopicError
  | fault (b : Breakdown)
  | refused (reason : String)
  | unanswered
deriving DecidableEq, Repr

structure Kafka where
  servers : Option String
  topic : String
  timeout : Number
  log : List LogEntry

namespace Kafka

def defaultServers : String := "localhost:9092"

def defaultTopic : String := "custom-rules"

/-- Ten seconds. -/
def defaultTimeout : Number := .decimal false ⟨100, -1⟩

def connect (servers : Option String) (topic : String) (timeout : Number) : Kafka where
  servers
  topic
  timeout
  log := [.connected servers]

def record (k : Kafka) (e : LogEntry) : Kafka := { k with log := k.log ++ [e] }

def topicConfig : List (String × String) := [("cleanup.policy", "compact")]

def topicEntry (k : Kafka) (partitions replication : Option Int) : LogEntry :=
  .topicCreated k.topic k.servers partitions replication

def ensureTopic (k : Kafka) (b : Broker) (partitions replication : Option Int) :
    Except TopicError Bool × Kafka :=
  match b.topicFault k.topic partitions replication with
  | some f => (.error (.fault f), k)
  | none =>
    let k := k.record (k.topicEntry partitions replication)
    match b.topicAnswer with
    | .created => (.ok true, k)
    | .refused code text =>
      if code = topicAlreadyExists then (.ok false, k)
      else (.error (.refused ("Cannot create topic '" ++ k.topic ++ "': " ++ text)), k)
    | .none => (.error .unanswered, k)

def payload (op id : String) (d : Document) : Value :=
  .object [("op", .text op), ("rule", .object (Document.withId d id).entries)]

def timedOut (k : Kafka) : String :=
  "Timed out after " ++ k.timeout.display ++ "s waiting for '" ++ k.topic ++ "'"

/-- Publishes one message. If it was accepted, it counts as stored when nothing is left waiting and
no delivery failed. -/
def publish (k : Kafka) (b : Broker) (op id : String) (d : Document) : Outcome × Kafka :=
  match b.refusal with
  | some reason => (.refused reason, k)
  | none =>
    let k := k.record (.produced k.topic id (payload op id d))
    if 0 < b.pending then (.refused k.timedOut, k)
    else
      match b.deliveries.findSome? (fun e => e) with
      | some reason => (.refused reason, k)
      | none => (.stored id, k)

def write (k : Kafka) (b : Broker) (fresh : String) : Request → Outcome × Kafka
  | .create d => k.publish b "create" fresh d
  | .update id d => k.publish b "update" id d

end Kafka

end SigmaDesk.Store
