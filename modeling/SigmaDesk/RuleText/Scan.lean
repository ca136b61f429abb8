import SigmaDesk.Record
import SigmaDesk.RuleText.Error
import SigmaDesk.RuleText.FlowList
import SigmaDesk.RuleText.Line
import SigmaDesk.Text.Digits

/-!
# Reading rule text

A rule text is read line by line into a record. What is kept between lines is the record so far and
where the reading stands; a line is judged by what came before it only, and nothing is left to be
checked at the end.

Text may be indented or flat. In flat text a block's lines are not indented below its header: the
`logsource` block is then at most its `product` line, and the `detection` block runs to the end.
-/

namespace SigmaDesk.RuleText

inductive BlockKind
  | logsource
  | detection
deriving DecidableEq, Repr

/-- How the lines of a block are indented; `child` is the indentation of its first line. -/
inductive Layout
  | flat
  | nested (child : Nat)
deriving DecidableEq, Repr

/-- A block that has been opened. The header is the indentation of its key line; a detection block
that stands alone has none. The layout is known from the first line on. -/
structure Block where
  kind : BlockKind
  header : Option Nat
  layout : Option Layout := none
deriving DecidableEq, Repr

/-- A selection that is being put together: its name has been read, or its field too, on a line of
this indentation. -/
inductive Pending
  | bare (name : String)
  | matched (selection : Selection) (indent : Nat)
deriving DecidableEq, Repr

inductive Target
  | field (f : ListField)
  | matcher
deriving DecidableEq, Repr

structure Scan where
  record : Record := {}
  seen : List String := []
  base : Option Nat := none
  block : Option Block := none
  target : Option Target := none
  pending : Option Pending := none
  conditionSeen : Bool := false
deriving DecidableEq, Repr

def ruleKeys : List String :=
  ["id", "title", "description", "author", "level", "status", "tags", "falsepositives",
    "references", "logsource", "product", "detection", "condition"]

inductive TopKey
  | id
  | text (f : TextField)
  | items (f : ListField)
  | block (kind : BlockKind)
  | product
  | condition
  | extra
deriving DecidableEq, Repr

def TopKey.ofName (key : String) : TopKey :=
  if key = "id" then .id
  else if key = "title" then .text .name
  else if key = "description" then .text .description
  else if key = "level" then .text .level
  else if key = "status" then .text .status
  else if key = "author" then .text .author
  else if key = "tags" then .items .tags
  else if key = "falsepositives" then .items .falsePositives
  else if key = "references" then .items .references
  else if key = "logsource" then .block .logsource
  else if key = "detection" then .block .detection
  else if key = "product" then .product
  else if key = "condition" then .condition
  else .extra

def operatorWords : List String := ["and", "or", "not"]

def aggregateWords : List String := ["1", "all", "any", "of", "them"]

def termFault? (term : String) : Option Reason :=
  let lowered := Text.lower term
  if operatorWords.contains lowered then some (.operatorTerm term)
  else if aggregateWords.contains lowered || Text.allDigits term.toList then
    some (.aggregateTerm term)
  else if term.toList.any ("()|*?".toList.contains ·) then some (.unsupportedTerm term)
  else none

def conditionTerms (value : List Char) : Except Reason (List String) :=
  let terms := (Text.words (unquote value)).map String.ofList
  match terms.findSome? termFault? with
  | some fault => .error fault
  | none => .ok terms

def scalar (value : List Char) : String := String.ofList (unquote value)

def inlineList? (value : List Char) : Except Reason (Option (List String)) :=
  match flowList? value with
  | .ok items => .ok items
  | .error .unclosedList => .error .unclosedList
  | .error .unclosedQuote => .error .unclosedQuote

/-- Whether a block takes a line of this indentation, and the layout it then has. -/
def Block.layoutAt (b : Block) (indent : Nat) : Option Layout :=
  match b.layout with
  | none => some (if b.header.any (indent ≤ ·) then .flat else .nested indent)
  | some .flat => if b.kind = .detection then some .flat else none
  | some (.nested child) => if b.header.all (· < indent) then some (.nested child) else none

namespace Pending

def name : Pending → String
  | .bare name => name
  | .matched s _ => s.name

def build : Pending → Selection
  | .bare name => { name }
  | .matched s _ => s

def addItem (item : String) : Pending → Pending
  | .matched s indent => .matched { s with matcher := .many (s.values ++ [item]) } indent
  | p => p

end Pending

namespace Scan

def start : Scan := {}

def startDetection : Scan := { block := some { kind := .detection, header := none } }

def close (s : Scan) : Scan :=
  match s.pending with
  | some p =>
    { s with
      record := { s.record with selections := s.record.selections ++ [p.build] }
      pending := none }
  | none => s

def leave (s : Scan) : Scan := { s.close with block := none, target := none }

def addItem (s : Scan) (value : List Char) : Except Reason Scan :=
  match s.target with
  | some (.field f) =>
    .ok { s with record := s.record.setItems f (s.record.items f ++ [scalar value]) }
  | some .matcher => .ok { s with pending := s.pending.map (·.addItem (scalar value)) }
  | none => .error .itemWithoutList

def openItems (s : Scan) (f : ListField) (key : String) (value : List Char) :
    Except Reason Scan :=
  if value.isEmpty then .ok { s with target := some (.field f) }
  else do
    match ← inlineList? value with
    | some items => return { s with record := s.record.setItems f (s.record.items f ++ items) }
    | none => throw (.notAList key)

def openBlock (s : Scan) (kind : BlockKind) (indent : Nat) (key : String) (value : List Char) :
    Except Reason Scan :=
  if value.isEmpty then .ok { s with block := some { kind, header := some indent } }
  else .error (.notAMapping key)

def topEntry (s : Scan) (indent : Nat) (key : String) (value : List Char) : Except Reason Scan :=
  match TopKey.ofName key with
  | .id => .ok { s with record := { s.record with id := identifier? (scalar value) } }
  | .text f => .ok { s with record := s.record.setText f (scalar value) }
  | .items f => s.openItems f key value
  | .block kind => s.openBlock kind indent key value
  | .product =>
    -- In flat text the product may follow the other keys that end a `logsource` block.
    if s.seen.contains "logsource" then
      .ok { s with record := s.record.setText .logType (scalar value) }
    else .error .productOutsideLogsource
  | .condition => .error .conditionOutsideDetection
  | .extra =>
    if value.isEmpty then .error (.unsupportedKey key)
    else
      .ok { s with record := { s.record with extras := s.record.extras.insert key (scalar value) } }

def topLine (s : Scan) (l : Line) : Except Reason Scan :=
  match l.content with
  | .item value => s.addItem value
  | .other => .error (.notAnEntry (String.ofList l.body))
  | .entry key value =>
    if s.base.any (· < l.indent) then .error (.nestedKey key)
    else if s.seen.contains key then .error (.duplicateKey key)
    else topEntry { s with seen := key :: s.seen, target := none } l.indent key value

/-- A line of a `logsource` block. In flat text any other key than `product` ends the block. -/
def logsourceLine (s : Scan) (layout : Layout) (l : Line) : Except Reason Scan :=
  match l.content with
  | .item _ | .other => .error (.notAnEntry (String.ofList l.body))
  | .entry key value =>
    if key = "product" then
      if s.seen.contains key then .error (.duplicateKey key)
      else
        let s := { s with
          seen := key :: s.seen
          record := s.record.setText .logType (scalar value) }
        .ok (if layout = .flat then s.leave else s)
    else if layout = .flat then s.leave.topLine l
    else .error (.unsupportedLogsourceKey key)

def openSelection (s : Scan) (name : String) (value : List Char) : Except Reason Scan :=
  let s := s.close
  if !value.isEmpty then .error (.selectionWithValue name)
  else if s.record.selectionNames.contains name then .error (.duplicateSelection name)
  else .ok { s with pending := some (.bare name) }

def splitModifier (key : String) : Except Reason (String × Option String) :=
  let field := String.ofList (Text.trim (key.toList.takeWhile (· != '|')))
  let modifier := (key.toList.dropWhile (· != '|')).drop 1
  if field.isEmpty then .error .emptyField
  else if modifier.isEmpty then .ok (field, none)
  else if modifier.contains '|' then .error (.chainedModifiers key)
  else if modifiers.contains (String.ofList modifier) then
    .ok (field, some (String.ofList modifier))
  else .error (.unsupportedModifier (String.ofList modifier))

def matcherLine (s : Scan) (name : String) (indent : Nat) (key : String) (value : List Char) :
    Except Reason Scan := do
  let (fieldKey, modifier) ← splitModifier key
  let matched (matcher : Matcher) : Option Pending :=
    some (.matched { name, fieldKey, modifier, matcher } indent)
  if value.isEmpty then
    return { s with pending := matched (.many []), target := some .matcher }
  else
    match ← inlineList? value with
    | some items => return { s with pending := matched (.many items) }
    | none => return { s with pending := matched (.one (scalar value)) }

/-- A key of a detection block other than its condition: the name of a selection or the field of
one. In flat text the line after a name is its field; otherwise indentation tells them apart. -/
def selectionEntry (s : Scan) (layout : Layout) (indent : Nat) (key : String)
    (value : List Char) : Except Reason Scan :=
  match layout with
  | .flat =>
    match s.pending with
    | some (.bare name) => s.matcherLine name indent key value
    | _ => s.openSelection key value
  | .nested child =>
    if indent = child then s.openSelection key value
    else if child < indent then
      match s.pending with
      | none => .error (.unexpectedIndentation key)
      | some (.bare name) => s.matcherLine name indent key value
      | some (.matched selection fieldIndent) =>
        .error (if fieldIndent < indent then .nestedMapping selection.fieldKey
          else .secondField selection.name)
    else .error .inconsistentIndentation

def Layout.takesCondition : Layout → (indent : Nat) → Bool
  | .flat, _ => true
  | .nested child, indent => indent == child

def detectionLine (s : Scan) (layout : Layout) (l : Line) : Except Reason Scan :=
  match l.content with
  | .item value =>
    match s.pending with
    | some (.bare name) => .error (.itemUnderSelection name)
    | _ => s.addItem value
  | .other => .error (.notAnEntry (String.ofList l.body))
  | .entry key value =>
    let s := { s with target := none }
    -- Deeper than the block's own lines, `condition` is the field of a selection.
    if key = "condition" ∧ Layout.takesCondition layout l.indent then
      if s.conditionSeen then .error (.duplicateKey key)
      else do
        let terms ← conditionTerms value
        let s := s.close
        return { s with conditionSeen := true, record := { s.record with condition := ⟨terms⟩ } }
    else s.selectionEntry layout l.indent key value

def line (s : Scan) (l : Line) : Except Reason Scan :=
  let s := { s with base := s.base.or (some l.indent) }
  match s.block with
  | none => s.topLine l
  | some b =>
    match b.layoutAt l.indent with
    | none => s.leave.topLine l
    | some layout =>
      let s := { s with block := some { b with layout := some layout } }
      match b.kind with
      | .logsource => s.logsourceLine layout l
      | .detection => s.detectionLine layout l

/-- Any line. A document mark may stand only before the first line that means something. -/
def read (s : Scan) (raw : List Char) : Except Reason Scan :=
  match RawLine.ofChars raw with
  | .skipped => .ok s
  | .documentMark => if s.base.isSome then .error .secondDocument else .ok s
  | .tabbed => .error .tabIndentation
  | .line l => s.line l

def readAll (s : Scan) (n : Nat) : List (List Char) → Except ParseError Scan
  | [] => .ok s
  | raw :: raws =>
    match s.read raw with
    | .ok s => s.readAll (n + 1) raws
    | .error reason => .error ⟨n, reason⟩

end Scan

def parse (text : String) : Except ParseError Record := do
  let s ← Scan.start.readAll 1 (Text.lines text.toList)
  return s.close.record

def parseDetection (text : String) : Except ParseError (List Selection × Condition) := do
  let s ← Scan.startDetection.readAll 1 (Text.lines text.toList)
  let r := s.close.record
  return (r.selections, r.condition)

end SigmaDesk.RuleText
