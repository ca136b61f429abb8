import SigmaDesk.Text.Digits
import SigmaDesk.Value

/-!
# Stores

A store takes finished documents. It is asked to create one, and then gives it an identifier, or to
update one under the identifier it has. A store in memory serves dry runs.
-/

namespace SigmaDesk.Store

inductive Request
  | create (document : Document)
  | update (id : String) (document : Document)

/-- How a store meets a request: it keeps the document under an identifier, refuses it with a
reason, or breaks down. -/
inductive Outcome
  | stored (id : String)
  | refused (reason : String)
  | broken (message : String)
deriving DecidableEq, Repr

def Request.document : Request → Document
  | .create d => d
  | .update _ d => d

/-- The identifier that is minted from random bits: hexadecimal digits in groups of eight, four,
four, four and twelve. The third group starts with the version and the fourth with the two bits of
the variant; the other 122 bits are the random ones. -/
def mintedId (bits : Nat) : String :=
  let group (width n : Nat) : String := String.ofList (Text.hex width n)
  "-".intercalate
    [group 8 (bits >>> 90), group 4 (bits >>> 74), group 4 (0x4000 + bits >>> 62 % 0x1000),
      group 4 (0x8000 + bits >>> 48 % 0x4000), group 12 bits]

def Request.target (fresh : String) : Request → String
  | .create _ => fresh
  | .update id _ => id

structure Memory where
  documents : Table Document := .empty

namespace Memory

def get? (m : Memory) (id : String) : Option Document := m.documents.get? id

def keep (m : Memory) (id : String) (d : Document) : Memory :=
  ⟨m.documents.insert id (Document.withId d id)⟩

def write (m : Memory) (fresh : String) : Request → Outcome × Memory
  | .create d => (.stored fresh, m.keep fresh d)
  | .update id d =>
    if m.documents.contains id then (.stored id, m.keep id d)
    else (.refused ("Rule not found: " ++ id), m)

end Memory

end SigmaDesk.Store
