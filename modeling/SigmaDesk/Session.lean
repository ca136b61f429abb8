import SigmaDesk.Edit
import SigmaDesk.Gate
import SigmaDesk.RuleText.Scan
import SigmaDesk.RuleText.Writer

/-!
# Editor sessions

One analyst editing one rule, in the form or as text. The text replaces the record as a whole, and
only when it can be read. A call that is refused gives the reason, and the session.
-/

namespace SigmaDesk

namespace Session

inductive State
  | empty
  | editing
  | invalid
  | valid
  | submitting
  | submitted
  | submitFailed
deriving DecidableEq, Repr

def State.label : State → String
  | .empty => "empty"
  | .editing => "editing"
  | .invalid => "invalid"
  | .valid => "valid"
  | .submitting => "submitting"
  | .submitted => "submitted"
  | .submitFailed => "submit_failed"

/-- Which editor is open. The text editor holds its text and why it could last not be left. -/
inductive Mode
  | structured
  | text (content : String) (error : Option RuleText.ParseError)
deriving DecidableEq, Repr

def Mode.label : Mode → String
  | .structured => "structured"
  | .text _ _ => "text"

end Session

structure Session where
  record : Record
  state : Session.State
  mode : Session.Mode := .structured
  fieldErrors : Table (List String) := .empty
  notifications : List String := []
deriving DecidableEq, Repr

namespace Session

def start : Option Record → Session
  | some r => { record := r, state := .editing }
  | none => { record := .fresh, state := .empty }

inductive Op
  | edit (e : Edit)
  | switchToText
  | setText (content : String)
  | switchToStructured
  | blur (field : String)
  | preview
  | report
deriving Repr

inductive OpError
  | locked
  | textEditorOpen
  | textEditorClosed
  | edit (e : EditError)
  | parse (e : RuleText.ParseError)
deriving Repr

namespace OpError

def message : OpError → String
  | .locked => "Rule is being submitted; edits are locked"
  | .textEditorOpen => "Switch back to the visual editor to edit fields"
  | .textEditorClosed => "Switch to the text editor before editing text"
  | .edit e => e.message
  | .parse e => e.message

end OpError

inductive Answer
  | done
  | selection (s : Selection)
  | record (r : Record)
  | text (s : String)
  | messages (ms : List String)
  | report (r : Report)
deriving Repr

def text? (s : Session) : Option String :=
  match s.mode with
  | .structured => none
  | .text content _ => some content

def parseError? (s : Session) : Option RuleText.ParseError :=
  match s.mode with
  | .structured => none
  | .text _ error => error

def report (c : Catalog) (s : Session) : Report := Gate.evaluate c s.record

def preview (s : Session) : String := s.text?.getD (RuleText.preview s.record)

def changed (c : Catalog) (s : Session) : Session :=
  { s with state := if (s.report c).submittable then .valid else .editing }

/-- What an edit answers: an added selection is shown. -/
def editAnswer (e : Edit) (r : Record) : Answer :=
  match e, r.selections.getLast? with
  | .addSelection _, some s => .selection s
  | _, _ => .done

def edit (c : Catalog) (e : Edit) (s : Session) : Except OpError Answer × Session :=
  if s.state = .submitting then (.error .locked, s)
  else
    match s.mode with
    | .text _ _ => (.error .textEditorOpen, s)
    | .structured =>
      match e.apply s.record with
      | .error err => (.error (.edit err), s)
      | .ok r => (.ok (editAnswer e r), changed c { s with record := r })

def switchToText (s : Session) : Except OpError Answer × Session :=
  if s.state = .submitting then (.error .locked, s)
  else
    match s.mode with
    | .text content _ => (.ok (.text content), s)
    | .structured =>
      let content := RuleText.preview s.record
      (.ok (.text content), { s with mode := .text content none })

def setText (content : String) (s : Session) : Except OpError Answer × Session :=
  if s.state = .submitting then (.error .locked, s)
  else
    match s.mode with
    | .text _ error => (.ok .done, { s with mode := .text content error })
    | .structured => (.error .textEditorClosed, s)

/-- The first line that starts with the `id` key, or the first line of all. -/
def idLine (content : String) : Nat :=
  match (Text.lines content.toList).findIdx? (fun l => "id:".toList.isPrefixOf (Text.trim l)) with
  | some i => i + 1
  | none => 1

/-- Keeps an assigned identifier over a text without one, and refuses a text with another. -/
def carryId (assigned : Option String) (content : String) (r : Record) :
    Except RuleText.ParseError Record :=
  match assigned, r.id with
  | none, _ => .ok r
  | some a, none => .ok { r with id := some a }
  | some a, some b => if b = a then .ok r else .error ⟨idLine content, .changedId a⟩

def readText (s : Session) (content : String) : Except RuleText.ParseError Record :=
  RuleText.parse content >>= carryId s.record.id content

/-- Leaves the text editor if it is open, or keeps why it cannot be left. -/
def leaveText (c : Catalog) (s : Session) : Except RuleText.ParseError Unit × Session :=
  match s.mode with
  | .structured => (.ok (), s)
  | .text content _ =>
    match s.readText content with
    | .error e => (.error e, { s with mode := .text content (some e) })
    | .ok r => (.ok (), changed c { s with record := r, mode := .structured })

def switchToStructured (c : Catalog) (s : Session) : Except OpError Answer × Session :=
  if s.state = .submitting then (.error .locked, s)
  else
    match s.leaveText c with
    | (.error e, s) => (.error (.parse e), s)
    | (.ok (), s) => (.ok (.record s.record), s)

def blur (c : Catalog) (field : String) (s : Session) : Except OpError Answer × Session :=
  let messages := Gate.checkField c s.record field
  if messages.isEmpty then
    (.ok (.messages messages), { s with fieldErrors := s.fieldErrors.erase field })
  else
    (.ok (.messages messages),
      { s with
        fieldErrors := s.fieldErrors.insert field messages
        state := if s.state = .submitting ∨ s.state = .empty then s.state else .invalid })

def step (c : Catalog) (s : Session) : Op → Except OpError Answer × Session
  | .edit e => s.edit c e
  | .switchToText => s.switchToText
  | .setText content => s.setText content
  | .switchToStructured => s.switchToStructured c
  | .blur field => s.blur c field
  | .preview => (.ok (.text s.preview), s)
  | .report => (.ok (.report (s.report c)), s)

end Session

end SigmaDesk
