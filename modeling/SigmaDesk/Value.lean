import SigmaDesk.Number
import SigmaDesk.Table

/-!
# Values

What a stored document may hold at one of its keys.
-/

namespace SigmaDesk

/-- The entries of an object are in order. -/
inductive Value
  | null
  | bool (b : Bool)
  | number (n : Number)
  | text (s : String)
  | list (items : List Value)
  | object (entries : List (String × Value))
deriving Repr, BEq, Inhabited

abbrev Document := Table Value

/-- The document under an identifier, which replaces the one it carries. -/
def Document.withId (d : Document) (id : String) : Document := d.insert "id" (.text id)

namespace Value

/-- The values that count as nothing: null, false, zero, and what is empty. -/
def isNothing : Value → Bool
  | .null => true
  | .bool b => !b
  | .number n => n.isZero
  | .text s => s.isEmpty
  | .list items => items.isEmpty
  | .object entries => entries.isEmpty

end Value

end SigmaDesk
