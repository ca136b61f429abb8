import SigmaDesk.RuleText.Scan
import SigmaDesk.RuleText.Writer
import SigmaDesk.Value

/-!
# Stored documents

A store keeps a rule as a flat document. Documents are not checked when they are stored, so any value
may stand at any key. Where a record would have a text and the document has something else, the
hydrated rule keeps the value; where a value cannot be gone through or looked into, the document
cannot be read.
-/

namespace SigmaDesk

namespace Value

def wrapped (vs : List String) : Value := .list (vs.map fun v => .object [("value", .text v)])

end Value

def Record.document (r : Record) : Except RuleText.WriteError Document := do
  let detection ← RuleText.writeDetection r
  return {
    entries := [
      ("id", .text (r.id.getD "")),
      ("category", .text r.logType),
      ("title", .text r.name),
      ("description", .text r.description),
      ("status", .text r.status),
      ("author", .text r.author),
      ("references", .wrapped r.references),
      ("tags", .wrapped r.tags),
      ("log_source", .text ""),
      ("detection", .text detection),
      ("level", .text r.level),
      ("false_positives", .wrapped r.falsePositives),
      ("extras", .object (r.extras.mapValues Value.text).entries)] }

/-- Why a document cannot be read. The values are those that have no members to go through, no
entries to look up, no items to list, or no lower case. -/
inductive Document.HydrateError
  | parse (e : RuleText.ParseError)
  | selection (e : SelectionError)
  | missingName
  | noMembers (v : Value)
  | noEntries (v : Value)
  | noItems (v : Value)
  | noLowerCase (v : Value)
deriving Repr

def Document.HydrateError.message : Document.HydrateError → String
  | .parse e => e.message
  | .selection e => e.message
  | .missingName => Text.quoted "name"
  | .noMembers v => "'" ++ v.kind ++ "' object is not iterable"
  | .noEntries (.text _) => "string indices must be integers, not 'str'"
  | .noEntries (.list _) => "list indices must be integers or slices, not str"
  | .noEntries v => "'" ++ v.kind ++ "' object is not subscriptable"
  | .noItems v => "'" ++ v.kind ++ "' object has no attribute 'items'"
  | .noLowerCase v => "'" ++ v.kind ++ "' object has no attribute 'lower'"

inductive HydratedMatcher
  | one (text : String)
  | many (items : List Value)
deriving Repr

structure HydratedSelection where
  name : Value
  fieldKey : Value
  modifier : Option Value
  matcher : HydratedMatcher
deriving Repr

structure Hydrated where
  id : Option Value
  name : Value
  description : Value
  author : Value
  logType : Value
  level : String
  status : Value
  tags : List String
  references : List String
  falsePositives : List String
  selections : List HydratedSelection
  condition : List Value
  extras : Table String
deriving Repr

def HydratedMatcher.style : HydratedMatcher → Style
  | .one _ => .value
  | .many _ => .list

def HydratedMatcher.ofMatcher : Matcher → HydratedMatcher
  | .one s => .one s
  | .many items => .many (items.map .text)

def HydratedSelection.ofSelection (s : Selection) : HydratedSelection where
  name := .text s.name
  fieldKey := .text s.fieldKey
  modifier := s.modifier.map .text
  matcher := .ofMatcher s.matcher

def Hydrated.ofRecord (r : Record) : Hydrated where
  id := r.id.map .text
  name := .text r.name
  description := .text r.description
  author := .text r.author
  logType := .text r.logType
  level := r.level
  status := .text r.status
  tags := r.tags
  references := r.references
  falsePositives := r.falsePositives
  selections := r.selections.map .ofSelection
  condition := r.condition.terms.map .text
  extras := r.extras

namespace Value

/-- The members of a value that is gone through one by one: items, keys or characters. -/
def members : Value → Except Document.HydrateError (List Value)
  | .list items => .ok items
  | .object entries => .ok (entries.map fun e => .text e.1)
  | .text s => .ok (s.toList.map fun c => .text c.toString)
  | v => .error (.noMembers v)

def unwrapped (v : Value) : Except Document.HydrateError (List String) := do
  if v.isNothing then return []
  return (← v.members).map fun
    | .object entries => ((entries.lookup "value").getD (.text "")).display
    | m => m.display

def matcher (name : Value) : Style → Value → Except Document.HydrateError HydratedMatcher
  | .list, .text s => .ok (.ofMatcher (.many (Matcher.itemsOf s)))
  | .list, v => .many <$> v.members
  | .value, .text s => .ok (.one s)
  | .value, _ => .error (.selection (.notOneText name.display))

def selection : Value → Except Document.HydrateError HydratedSelection
  | .object entries => do
    let some name := entries.lookup "name" | throw .missingName
    let style := (entries.lookup "match_style").getD (.text "value")
    let style ← (Style.ofValue style).mapError .selection
    return {
      name
      fieldKey := (entries.lookup "field_key").getD (.text "")
      modifier := (entries.lookup "modifier").filter (!·.isNothing)
      matcher := ← matcher name style ((entries.lookup "value").getD (.text "")) }
  | v => .error (.noEntries v)

def condition : Value → Except Document.HydrateError (List Value)
  | .text s => .ok ((Text.words s.toList).map fun w => .text (String.ofList w))
  | v => v.members

end Value

namespace Document

def getText (d : Document) (key default : String) : Value := (d.get? key).getD (.text default)

def getSomeText (d : Document) (key : String) : Value :=
  let v := d.getText key ""
  if v.isNothing then .text "" else v

def storedDetection (d : Document) :
    Except HydrateError (List HydratedSelection × List Value) := do
  let selections ← ((d.get? "selections").getD (.list [])).members
  let selections ← selections.mapM Value.selection
  return (selections, ← ((d.get? "condition").getD (.list [])).condition)

/-- The selections and the condition: read from the detection text, unless that is blank or no
text. -/
def detection (d : Document) : Except HydrateError (List HydratedSelection × List Value) :=
  match d.get? "detection" with
  | some (.text s) =>
    if s.toList.all Text.isBlank then d.storedDetection
    else
      match RuleText.parseDetection s with
      | .ok (selections, condition) =>
        .ok (selections.map .ofSelection, condition.terms.map .text)
      | .error e => .error (.parse e)
  | _ => d.storedDetection

def extras (d : Document) : Except HydrateError (Table String) :=
  match (d.get? "extras").getD .null with
  | .object entries => .ok ((Table.ofList entries).mapValues Value.display)
  | v => if v.isNothing then .ok .empty else .error (.noItems v)

def level (d : Document) : Except HydrateError String :=
  match d.getSomeText "level" with
  | .text s => .ok (Text.lower s)
  | v => .error (.noLowerCase v)

/-- The first of the two identifiers that is not nothing. -/
def identifier? (d : Document) : Option Value :=
  ["id", "_id"].findSome? fun key => (d.get? key).filter (!·.isNothing)

def texts (d : Document) (key : String) : Except HydrateError (List String) :=
  ((d.get? key).getD .null).unwrapped

def hydrate (d : Document) : Except HydrateError Hydrated := do
  let (selections, condition) ← d.detection
  let tags ← d.texts "tags"
  let references ← d.texts "references"
  let falsePositives ← d.texts "false_positives"
  let extras ← d.extras
  let level ← d.level
  return {
    id := d.identifier?
    name := d.getText "title" ""
    description := d.getSomeText "description"
    author := d.getText "author" ""
    logType := d.getText "category" ""
    level
    status := d.getText "status" "experimental"
    tags, references, falsePositives, selections, condition, extras }

end Document

end SigmaDesk
