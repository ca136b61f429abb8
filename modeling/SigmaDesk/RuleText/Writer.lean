import SigmaDesk.Record
import SigmaDesk.RuleText.Scalar
import SigmaDesk.Text.Lines
import SigmaDesk.Text.Quoted

/-!
# Writing rule text

One rendering under two policies: the strict writer refuses a record whose detection is incomplete
or which has a value of more than one line; the preview writes what there is.
-/

namespace SigmaDesk.RuleText

inductive WriteError
  | conditionRequired
  | incompleteSelection (name : String)
  | severalLines (value : String)
deriving DecidableEq, Repr

def WriteError.message : WriteError → String
  | .conditionRequired => "Condition is required"
  | .incompleteSelection name => "Selection '" ++ name ++ "' is incomplete"
  | .severalLines value => "Value must be a single line: " ++ Text.quoted value

/-- How the rendering meets what may be unfinished, in a monad that can refuse it. -/
structure Policy (m : Type → Type) where
  oneLine : String → m String
  condition : Condition → m Unit
  selection : Selection → m Unit

namespace Policy

def strict : Policy (Except WriteError) where
  oneLine v := if Text.isSingleLine v then .ok v else .error (.severalLines v)
  condition c := if c.isEmpty then .error .conditionRequired else .ok ()
  selection s := if s.isComplete then .ok () else .error (.incompleteSelection s.name)

def joinWords (v : String) : String :=
  " ".intercalate ((Text.words v.toList).map String.ofList)

/-- Accepts everything; a value of several lines is written on one. -/
def preview : Policy Id where
  oneLine v := if Text.isSingleLine v then v else joinWords v
  condition _ := ()
  selection _ := ()

end Policy

def indentation : String := "  "

def bareOrQuoted (v : String) : String :=
  if needsQuotes v.toList then String.ofList (quote v.toList) else v

section

variable {m : Type → Type} [Monad m] (p : Policy m)

def entryLine (key value : String) : m String := do
  let v ← p.oneLine value
  return if v.isEmpty then key ++ ":" else key ++ ": " ++ bareOrQuoted v

def itemLine (value : String) : m String := do
  let v ← p.oneLine value
  return "- " ++ if v.isEmpty then "''" else bareOrQuoted v

def quotedItemLine (value : String) : m String := do
  let v ← p.oneLine value
  return "- " ++ String.ofList (quote v.toList)

/-- The field of a selection, indented by `pad`; nothing while there is no field. -/
def matcherLines (pad : String) (s : Selection) : m (List String) :=
  if s.fieldKey.isEmpty then pure []
  else
    match s.matcher with
    | .one text => return [pad ++ (← entryLine p s.key text)]
    | .many items => do
      let lines ← items.mapM (itemLine p)
      return (pad ++ s.key ++ ":") :: lines.map (pad ++ indentation ++ ·)

def selectionLines (pad : String) (s : Selection) : m (List String) := do
  p.selection s
  let lines ← matcherLines p (pad ++ indentation) s
  return (pad ++ s.name ++ ":") :: lines

def detectionLines (pad : String) (r : Record) : m (List String) := do
  p.condition r.condition
  let condition ← entryLine p "condition" r.condition.text
  let selections ← r.selections.mapM (selectionLines p pad)
  return (pad ++ condition) :: selections.flatten

def listLines (key : String) (item : String → m String) (values : List String) :
    m (List String) := do
  let lines ← values.mapM item
  return (key ++ ":") :: lines.map (indentation ++ ·)

def ruleLines (r : Record) : m (List String) := do
  let id ← entryLine p "id" (r.id.getD "")
  let product ← entryLine p "product" r.logType
  let title ← entryLine p "title" r.name
  let description ← if r.description.isEmpty then pure []
    else List.singleton <$> entryLine p "description" r.description
  let tags ← listLines "tags" (itemLine p) r.tags
  let falsePositives ← listLines "falsepositives" (itemLine p) r.falsePositives
  let level ← entryLine p "level" (Text.lower r.level)
  let status ← entryLine p "status" r.status
  let references ← listLines "references" (quotedItemLine p) r.references
  let author ← entryLine p "author" r.author
  let extras ← r.extras.entries.mapM fun e => entryLine p e.1 e.2
  let detection ← detectionLines p indentation r
  return [id, "logsource:", indentation ++ product, title] ++ description ++ tags ++
    falsePositives ++ [level, status] ++ references ++ [author] ++ extras ++
    "detection:" :: detection

end

def textOfLines (ls : List String) : String :=
  String.ofList (Text.unlines (ls.map String.toList))

def writeLines (r : Record) : Except WriteError (List String) := ruleLines .strict r

def write (r : Record) : Except WriteError String := textOfLines <$> writeLines r

def preview (r : Record) : String := textOfLines (ruleLines .preview r).run

/-- The detection block of a complete record, not indented, as stores keep it. -/
def writeDetection (r : Record) : Except WriteError String :=
  textOfLines <$> detectionLines .strict "" r

def previewDetection (r : Record) : String := textOfLines (detectionLines .preview "" r).run

end SigmaDesk.RuleText

namespace SigmaDesk

structure View where
  title : String
  logType : String
  severity : String
  tags : List String
  references : List String
  falsePositives : List String
  status : String
  detection : String
deriving DecidableEq, Repr

def Record.view (r : Record) : View where
  title := r.name
  logType := r.logType
  severity := r.level
  tags := r.tags
  references := r.references
  falsePositives := r.falsePositives
  status := r.status
  detection := RuleText.previewDetection r

end SigmaDesk
