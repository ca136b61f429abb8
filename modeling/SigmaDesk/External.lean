/-!
# Libraries

The library neither reads YAML nor speaks to a broker by itself. What does is given to it: a loader
of YAML, and the behaviour of a broker and its client.
-/

namespace SigmaDesk

inductive Breakdown.Kind
  | malformed
  | wrongType
  | wrongValue
  | tooLarge
  | other (name : String)
deriving DecidableEq, Repr

/-- What a library breaks off with instead of giving a result. -/
structure Breakdown where
  kind : Breakdown.Kind
  message : String
deriving DecidableEq, Repr

/-- A loader of YAML whose data are of type `δ`, and what can be asked of a datum: the values of its
fields if it is a mapping, its items if it is a list, and its text. -/
structure Yaml.Loader (δ : Type) where
  load : String → Except Breakdown δ
  fields? : δ → Option (String → Option δ)
  items? : δ → Option (List δ)
  text : δ → Except Breakdown String

namespace Store

inductive TopicAnswer
  | created
  | refused (code : Int) (text : String)
  | none
deriving DecidableEq, Repr

/-- How the broker and its client behave: what the client breaks off with when a topic without a
name is asked for, or one of this name with these counts of partitions and copies, and what the
broker answers; what a message is refused with, the errors that are reported on delivery, and how
many messages are left waiting. -/
structure Broker where
  nameless : Breakdown := ⟨.wrongType, "a topic has a name"⟩
  topicFault : (name : String) → (partitions replication : Option Int) → Option Breakdown :=
    fun _ _ _ => none
  topicAnswer : TopicAnswer := .created
  refusal : Option String := none
  deliveries : List (Option String) := [none]
  pending : Int := 0

namespace Client

def nameless : Breakdown := ⟨.wrongType, "argument 1 must be str, not list"⟩

def countFault? : Option Int → Option Breakdown
  | none => some ⟨.wrongType, "'list' object cannot be interpreted as an integer"⟩
  | some n =>
    if n < -0x8000000000000000 ∨ 0x8000000000000000 ≤ n then
      some ⟨.tooLarge, "Python int too large to convert to C long"⟩
    else if n < -0x80000000 then some ⟨.tooLarge, "signed integer is less than minimum"⟩
    else if 0x80000000 ≤ n then some ⟨.tooLarge, "signed integer is greater than maximum"⟩
    else none

/-- Of several faults the first counts: in the name, in the partitions, in the copies. -/
def topicFault (name : String) (partitions replication : Option Int) : Option Breakdown :=
  if name.toList.contains '\x00' then some ⟨.wrongValue, "embedded null character"⟩
  else countFault? partitions <|> countFault? replication

/-- What meets a program that no broker is linked to. -/
def offline : Broker where
  nameless := nameless
  topicFault := topicFault
  topicAnswer := .refused (-195) "no broker can be reached"

end Client

end Store

end SigmaDesk
