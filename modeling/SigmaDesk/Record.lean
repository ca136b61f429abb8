import SigmaDesk.Position
import SigmaDesk.Selection
import SigmaDesk.Text.Casing

/-!
# Rule records

The rule under edit. A record has no identifier until a store assigns one, and an assigned one is
never replaced.
-/

namespace SigmaDesk

/-- The names of selections, all of which must match. -/
structure Condition where
  terms : List String := []
deriving DecidableEq, Repr

namespace Condition

def add (c : Condition) (name : String) : Condition := ⟨c.terms ++ [name]⟩

def remove (c : Condition) (i : Int) : Except PositionError (String × Condition) :=
  match place? c.terms.length i with
  | some n => .ok (c.terms.getD n "", ⟨c.terms.eraseIdx n⟩)
  | none => .error ((if c.terms.isEmpty then PositionError.popEmpty else .pop).atPlace i)

def references (c : Condition) : List String := c.terms.eraseDups

def isEmpty (c : Condition) : Bool := c.terms.isEmpty

def text (c : Condition) : String := " ".intercalate c.terms

end Condition

/-- `extras` holds the keys of a rule text that the editor does not model. -/
structure Record where
  id : Option String := none
  name : String := ""
  description : String := ""
  author : String := ""
  logType : String := ""
  level : String := ""
  status : String := "experimental"
  tags : List String := []
  references : List String := []
  falsePositives : List String := []
  selections : List Selection := []
  condition : Condition := {}
  extras : Table String := .empty
deriving DecidableEq, Repr

inductive TextField
  | name
  | description
  | author
  | logType
  | level
  | status
deriving DecidableEq, Repr

inductive ListField
  | tags
  | references
  | falsePositives
deriving DecidableEq, Repr

/-- A record already has this identifier and keeps it. -/
structure AlreadyAssigned where
  id : String
deriving DecidableEq, Repr

def AlreadyAssigned.message (e : AlreadyAssigned) : String :=
  "Rule id is already assigned (" ++ e.id ++ "); refusing to replace it"

def selectionName (n : Nat) : String := "Selection_" ++ toString n

def identifier? (s : String) : Option String := if s.isEmpty then none else some s

namespace Record

/-- Lower-cases the level, as text always carries it, and reads an empty identifier as none. -/
def normalise (r : Record) : Record :=
  { r with level := Text.lower r.level, id := r.id.bind identifier? }

def text (r : Record) : TextField → String
  | .name => r.name
  | .description => r.description
  | .author => r.author
  | .logType => r.logType
  | .level => r.level
  | .status => r.status

/-- Writes a text field; a level is written in lower case. -/
def setText (r : Record) (f : TextField) (v : String) : Record :=
  match f with
  | .name => { r with name := v }
  | .description => { r with description := v }
  | .author => { r with author := v }
  | .logType => { r with logType := v }
  | .level => { r with level := Text.lower v }
  | .status => { r with status := v }

def items (r : Record) : ListField → List String
  | .tags => r.tags
  | .references => r.references
  | .falsePositives => r.falsePositives

def setItems (r : Record) (f : ListField) (vs : List String) : Record :=
  match f with
  | .tags => { r with tags := vs }
  | .references => { r with references := vs }
  | .falsePositives => { r with falsePositives := vs }

@[simp] theorem items_setItems (r : Record) (f : ListField) (vs : List String) :
    (r.setItems f vs).items f = vs := by
  cases f <;> rfl

/-- Where the form for a new rule starts: one blank selection and no condition. -/
def fresh : Record := { selections := [{ name := selectionName 1 }] }

def assignId (r : Record) (id : String) : Except AlreadyAssigned Record :=
  match r.id with
  | some current => if current = id then .ok r else .error ⟨current⟩
  | none => .ok { r with id := some id }

/-- The identifier to update under: an empty one counts as none. -/
def storedId? (r : Record) : Option String := r.id.bind identifier?

def selection? (r : Record) (name : String) : Option Selection :=
  r.selections.find? (·.name == name)

def selectionNames (r : Record) : List String := r.selections.map (·.name)

def firstFree (taken : List String) : (tries n : Nat) → Nat
  | 0, n => n
  | tries + 1, n => if taken.contains (selectionName n) then firstFree taken tries (n + 1) else n

/-- The first of `Selection_1`, `Selection_2`, … that no selection has. One try per selection is
enough: if all of them are taken, the next name is free. -/
def nextSelectionName (r : Record) : String :=
  selectionName (firstFree r.selectionNames r.selections.length 1)

end Record

end SigmaDesk
