import SigmaDesk.Record

/-!
# Edits

An edit either gives the edited record or says why it cannot be done. The condition is left alone
when a selection is renamed or removed; the gate then reports the term that names nothing.
-/

namespace SigmaDesk

/-- Positions count from the front, or from the end when negative. -/
inductive Edit
  | setText (f : TextField) (value : String)
  | addItem (f : ListField) (value : String)
  | setItem (f : ListField) (i : Int) (value : String)
  | removeItem (f : ListField) (i : Int)
  | addSelection (name : Option String)
  | renameSelection (i : Int) (name : String)
  | setSelectionKey (i : Int) (key : String)
  | setMatchStyle (i : Int) (style : Value)
  | setSelectionValue (i : Int) (value : String)
  | setSelectionList (i : Int) (values : List String)
  | removeSelection (i : Int)
  | addConditionTerm (name : Option String)
  | removeConditionTerm (i : Int)
deriving Repr

inductive EditError
  | position (e : PositionError)
  | selection (e : SelectionError)
  | selectionExists (name : String)
  | noSelection
deriving Repr

namespace EditError

def message : EditError → String
  | .position e => e.message
  | .selection e => e.message
  | .selectionExists name => "Selection '" ++ name ++ "' already exists"
  | .noSelection => "No selection to add to the condition"

end EditError

namespace Selection

/-- Reads `Field` or `Field|modifier` as typed into the form. -/
def withKey (s : Selection) (key : String) : Selection :=
  let modifier := String.ofList ((key.toList.dropWhile (· != '|')).drop 1)
  { s with
    fieldKey := String.ofList (key.toList.takeWhile (· != '|'))
    modifier := if modifier.isEmpty then none else some modifier }

end Selection

namespace Record

def modifySelection (r : Record) (i : Int) (f : Selection → Selection) :
    Except EditError Record :=
  match modifyAt .read i f r.selections with
  | .ok selections => .ok { r with selections }
  | .error e => .error (.position e)

end Record

namespace Edit

/-- The name of an added selection: the one that is asked for, or the next free one. -/
def newName (r : Record) : Option String → String
  | some name => if name.isEmpty then r.nextSelectionName else name
  | none => r.nextSelectionName

/-- The term to add: the one that is asked for, or the name of the first selection. -/
def newTerm? (r : Record) : Option String → Option String
  | some name => some name
  | none => r.selections.head?.map (·.name)

def apply (r : Record) : Edit → Except EditError Record
  | .setText f value => .ok (r.setText f value)
  | .addItem f value => .ok (r.setItems f (r.items f ++ [value]))
  | .setItem f i value =>
    match modifyAt .write i (fun _ => value) (r.items f) with
    | .ok items => .ok (r.setItems f items)
    | .error e => .error (.position e)
  | .removeItem f i =>
    match removeAt .write i (r.items f) with
    | .ok items => .ok (r.setItems f items)
    | .error e => .error (.position e)
  | .addSelection name =>
    let name := newName r name
    if (r.selection? name).isSome then .error (.selectionExists name)
    else .ok { r with selections := r.selections ++ [{ name }] }
  | .renameSelection i name => r.modifySelection i ({ · with name })
  | .setSelectionKey i key => r.modifySelection i (·.withKey key)
  | .setMatchStyle i style =>
    match place? r.selections.length i, Style.ofValue style with
    | none, _ => .error (.position (PositionError.read.atPlace i))
    | some _, .error e => .error (.selection e)
    | some _, .ok style => r.modifySelection i (·.switchStyle style)
  | .setSelectionValue i value => r.modifySelection i ({ · with matcher := .one value })
  | .setSelectionList i values => r.modifySelection i ({ · with matcher := .many values })
  | .removeSelection i =>
    match removeAt .write i r.selections with
    | .ok selections => .ok { r with selections }
    | .error e => .error (.position e)
  | .addConditionTerm name =>
    match newTerm? r name with
    | some name => .ok { r with condition := r.condition.add name }
    | none => .error .noSelection
  | .removeConditionTerm i =>
    match r.condition.remove i with
    | .ok (_, condition) => .ok { r with condition }
    | .error e => .error (.position e)

end Edit

end SigmaDesk
