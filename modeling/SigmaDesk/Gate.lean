import SigmaDesk.Check

/-!
# The gate

Whether a record may be handed to a store. The gate runs every field check and, after them, the
checks that span fields. A failure is filed under the slot that it belongs to.
-/

namespace SigmaDesk

inductive Slot
  | text (f : TextField)
  | item (f : ListField) (i : Nat)
  | extra (key : String)
  | selectionName (i : Nat)
  | fieldKey (i : Nat)
  | fieldValue (i : Nat)
  | condition
  | selections
deriving DecidableEq, Repr

def TextField.label : TextField → String
  | .name => "name"
  | .description => "description"
  | .author => "author"
  | .logType => "log_type"
  | .level => "level"
  | .status => "status"

def ListField.label : ListField → String
  | .tags => "tags"
  | .references => "references"
  | .falsePositives => "false_positives"

namespace Slot

def indexed (name : String) (i : Nat) : String := name ++ "[" ++ toString i ++ "]"

def label : Slot → String
  | .text f => f.label
  | .item f i => indexed f.label i
  | .extra key => "extras." ++ key
  | .selectionName i => indexed "selections" i ++ ".name"
  | .fieldKey i => indexed "selections" i ++ ".field_key"
  | .fieldValue i => indexed "selections" i ++ ".field_value"
  | .condition => "condition"
  | .selections => "selections"

end Slot

structure Failure where
  slot : Slot
  fault : Fault
deriving DecidableEq, Repr

namespace Failure

def field (f : Failure) : String := f.slot.label

def message (f : Failure) : String := f.fault.message

def structural (f : Failure) : Bool := f.fault.structural

end Failure

structure Report where
  failures : List Failure
deriving DecidableEq, Repr

namespace Report

def submittable (r : Report) : Bool := r.failures.isEmpty

def errorsFor (r : Report) (field : String) : List String :=
  (r.failures.filter (·.field == field)).map (·.message)

def structural (r : Report) : List Failure := r.failures.filter (·.structural)

/-- The messages by field, fields in order of their first failure. -/
def byField (r : Report) : Table (List String) :=
  r.failures.foldl
    (fun t f => t.insert f.field ((t.get? f.field).getD [] ++ [f.message])) .empty

end Report

namespace Gate

def failureAt (slot : Slot) (fault : Option Fault) : List Failure :=
  (fault.map (Failure.mk slot)).toList

def textFailures (c : Catalog) (r : Record) : List Failure :=
  [.name, .description, .author, .logType, .level, .status].flatMap fun f =>
    failureAt (.text f) (Check.text c f (r.text f))

def itemFailures (c : Catalog) (r : Record) (f : ListField) : List Failure :=
  (r.items f).zipIdx.flatMap fun (v, i) => failureAt (.item f i) (Check.item c f v)

def extraFailures (r : Record) : List Failure :=
  r.extras.entries.flatMap fun e => failureAt (.extra e.1) (Check.extra e.1 e.2)

def selectionFailuresAt (names : List String) (s : Selection) (i : Nat) : List Failure :=
  failureAt (.selectionName i) (Check.selectionName s.name (names.eraseIdx i)) ++
    failureAt (.fieldKey i) (Check.fieldKey s.fieldKey s.modifier) ++
    failureAt (.fieldValue i) (Check.matcher s.matcher)

def selectionFailures (r : Record) : List Failure :=
  r.selections.zipIdx.flatMap fun (s, i) => selectionFailuresAt r.selectionNames s i

def conditionFailures (r : Record) : List Failure :=
  failureAt .condition (Check.condition r.condition)

def danglingTerms (r : Record) : List String :=
  r.condition.references.filter (!r.selectionNames.contains ·)

def structuralFailures (r : Record) : List Failure :=
  (if r.selections.isEmpty then [⟨.selections, .noSelections⟩] else []) ++
    (danglingTerms r).map fun t => ⟨.condition, .unknownSelection t⟩

def evaluate (c : Catalog) (r : Record) : Report where
  failures :=
    textFailures c r ++ itemFailures c r .tags ++ itemFailures c r .references ++
      itemFailures c r .falsePositives ++ extraFailures r ++ selectionFailures r ++
      conditionFailures r ++ structuralFailures r

def checkField (c : Catalog) (r : Record) (field : String) : List String :=
  (evaluate c r).errorsFor field

end Gate

end SigmaDesk
