import SigmaDesk.Catalog
import SigmaDesk.Record
import SigmaDesk.RuleText.Scan

/-!
# Field checks

Each check looks at one field's value and gives what is wrong with it, if anything is. The editor
runs them when a field loses focus and again before a rule is handed to a store.
-/

namespace SigmaDesk

inductive Fault
  | nameRequired
  | nameInvalid
  | authorRequired
  | authorInvalid
  | descriptionInvalid
  | logTypeRequired
  | logTypeInvalid
  | levelRequired
  | levelInvalid
  | statusRequired
  | statusInvalid
  | tagOutside (tagPrefix : String)
  | tagLines
  | referenceLines
  | falsePositiveLines
  | extraKeyInvalid (key : String)
  | extraValueRequired (key : String)
  | valueLines
  | selectionNameRequired
  | selectionNameInvalid
  | selectionNameTaken
  | fieldKeyRequired
  | fieldKeyInvalid
  | modifierUnsupported (modifier : String)
  | valueRequired
  | conditionRequired
  | noSelections
  | unknownSelection (name : String)
deriving DecidableEq, Repr

namespace Fault

def structural : Fault → Bool
  | .noSelections | .unknownSelection _ => true
  | _ => false

def message : Fault → String
  | .nameRequired => "Rule name is required"
  | .nameInvalid => "Invalid rule name."
  | .authorRequired => "Author name is required"
  | .authorInvalid => "Invalid author."
  | .descriptionInvalid =>
    "Description should only consist of upper and lowercase letters, numbers 0-9, commas, " ++
      "hyphens, periods, spaces, and underscores. Max limit of 500 characters."
  | .logTypeRequired => "Log type is required"
  | .logTypeInvalid => "Invalid log type."
  | .levelRequired => "Rule level is required"
  | .levelInvalid => "Invalid rule level."
  | .statusRequired => "Rule status is required"
  | .statusInvalid => "Invalid rule status."
  | .tagOutside tagPrefix => "Tags must start with '" ++ tagPrefix ++ "'"
  | .tagLines => "Tag must be a single line."
  | .referenceLines => "Reference must be a single line."
  | .falsePositiveLines => "False positive must be a single line."
  | .extraKeyInvalid key => "Invalid key '" ++ key ++ "'."
  | .extraValueRequired key => "Value for '" ++ key ++ "' is required"
  | .valueLines => "Value must be a single line."
  | .selectionNameRequired => "Selection name is required"
  | .selectionNameInvalid => "Invalid selection name."
  | .selectionNameTaken => "Selection name must be unique."
  | .fieldKeyRequired => "Key name is required"
  | .fieldKeyInvalid => "Invalid key name."
  | .modifierUnsupported modifier => "Unsupported modifier '" ++ modifier ++ "'."
  | .valueRequired => "Value is required"
  | .conditionRequired => "Condition is required"
  | .noSelections => "At least one selection is required."
  | .unknownSelection name => "Condition references unknown selection '" ++ name ++ "'."

end Fault

namespace Check

def isNameChar (c : Char) : Bool := c.isAlphanum || c == ' ' || c == '_' || c == '-'

def isDescriptionChar (c : Char) : Bool := isNameChar c || c == ',' || c == '.'

def isName (s : String) : Bool :=
  5 ≤ s.length && s.length ≤ 50 && s.toList.all isNameChar

def isAuthor (s : String) : Bool := !s.isEmpty && s.toList.all isNameChar

def isDescription (s : String) : Bool := s.length ≤ 500 && s.toList.all isDescriptionChar

/-- A selection's name is a condition term: a word of letters, digits, underscores, periods and
hyphens that starts with none of the last two. -/
def isSelectionName (s : String) : Bool :=
  match s.toList with
  | [] => false
  | c :: cs =>
    (c.isAlphanum || c == '_') && cs.all fun d => d.isAlphanum || d == '_' || d == '.' || d == '-'

def reservedNames : List String :=
  ["condition", "and", "or", "not", "all", "any", "of", "them"]

/-- A key that reads back as one: no colon, bar or line end, no blank at either end, and no mark of
another construct at the start. -/
def isFieldKey (s : String) : Bool :=
  match s.toList with
  | [] => false
  | c :: cs =>
    !Text.isBlank c && !(":|#'\"-[".toList.contains c) && cs.all (!":|\r\n".toList.contains ·) &&
      !(c :: cs).getLast?.any Text.isBlank

def name (v : String) : Option Fault :=
  if v.isEmpty then some .nameRequired else if isName v then none else some .nameInvalid

def author (v : String) : Option Fault :=
  if v.isEmpty then some .authorRequired else if isAuthor v then none else some .authorInvalid

def description (v : String) : Option Fault :=
  if isDescription v then none else some .descriptionInvalid

def logType (c : Catalog) (v : String) : Option Fault :=
  if v.isEmpty then some .logTypeRequired
  else if c.hasLogType v then none else some .logTypeInvalid

def level (c : Catalog) (v : String) : Option Fault :=
  if v.isEmpty then some .levelRequired else if c.hasLevel v then none else some .levelInvalid

def status (c : Catalog) (v : String) : Option Fault :=
  if v.isEmpty then some .statusRequired else if c.hasStatus v then none else some .statusInvalid

def text (c : Catalog) : TextField → String → Option Fault
  | .name => name
  | .description => description
  | .author => author
  | .logType => logType c
  | .level => level c
  | .status => status c

def tag (c : Catalog) (v : String) : Option Fault :=
  if v.isEmpty || !c.tagPrefix.toList.isPrefixOf v.toList then some (.tagOutside c.tagPrefix)
  else if Text.isSingleLine v then none else some .tagLines

def item (c : Catalog) : ListField → String → Option Fault
  | .tags, v => tag c v
  | .references, v => if Text.isSingleLine v then none else some .referenceLines
  | .falsePositives, v => if Text.isSingleLine v then none else some .falsePositiveLines

def extra (key value : String) : Option Fault :=
  if !isFieldKey key || RuleText.ruleKeys.contains key then some (.extraKeyInvalid key)
  else if value.isEmpty then some (.extraValueRequired key)
  else if Text.isSingleLine value then none else some .valueLines

def selectionName (v : String) (siblings : List String) : Option Fault :=
  if v.isEmpty then some .selectionNameRequired
  else if !isSelectionName v || Text.allDigits v.toList ||
      reservedNames.contains (Text.lower v) then some .selectionNameInvalid
  else if siblings.contains v then some .selectionNameTaken else none

def fieldKey (v : String) (modifier : Option String) : Option Fault :=
  if v.isEmpty then some .fieldKeyRequired
  else if !isFieldKey v then some .fieldKeyInvalid
  else
    match modifier with
    | some m => if modifiers.contains m then none else some (.modifierUnsupported m)
    | none => none

def matcher (m : Matcher) : Option Fault :=
  if !m.isComplete then some .valueRequired
  else if m.values.all Text.isSingleLine then none else some .valueLines

def condition (c : Condition) : Option Fault :=
  if c.isEmpty then some .conditionRequired else none

end Check

end SigmaDesk
