/-!
# Why a rule text is refused

A rule text is refused at the first line that cannot be part of a rule, with the reason.
-/

namespace SigmaDesk.RuleText

inductive Reason
  | secondDocument
  | tabIndentation
  | notAnEntry (body : String)
  | nestedKey (key : String)
  | duplicateKey (key : String)
  | notAMapping (key : String)
  | notAList (key : String)
  | productOutsideLogsource
  | conditionOutsideDetection
  | unsupportedKey (key : String)
  | unsupportedLogsourceKey (key : String)
  | itemWithoutList
  | itemUnderSelection (selection : String)
  | unexpectedIndentation (key : String)
  | inconsistentIndentation
  | selectionWithValue (selection : String)
  | duplicateSelection (selection : String)
  | nestedMapping (field : String)
  | secondField (selection : String)
  | emptyField
  | chainedModifiers (key : String)
  | unsupportedModifier (modifier : String)
  | unclosedList
  | unclosedQuote
  | operatorTerm (term : String)
  | aggregateTerm (term : String)
  | unsupportedTerm (term : String)
  | changedId (assigned : String)
deriving DecidableEq, Repr

namespace Reason

def message : Reason → String
  | .secondDocument => "multiple documents are not supported"
  | .tabIndentation => "tabs are not allowed for indentation"
  | .notAnEntry body => "expected 'key: value', got '" ++ body ++ "'"
  | .nestedKey key => "nested key '" ++ key ++ "' is not supported here"
  | .duplicateKey key => "duplicate key '" ++ key ++ "'"
  | .notAMapping key => "'" ++ key ++ "' must be a mapping"
  | .notAList key => "'" ++ key ++ "' must be a list"
  | .productOutsideLogsource => "'product' outside of 'logsource'"
  | .conditionOutsideDetection => "'condition' outside of 'detection'"
  | .unsupportedKey key => "unsupported key '" ++ key ++ "'"
  | .unsupportedLogsourceKey key => "unsupported logsource key '" ++ key ++ "'"
  | .itemWithoutList => "list item without a preceding list key"
  | .itemUnderSelection selection =>
    "list directly under selection '" ++ selection ++
      "' is not supported; use 'Field: value' or 'Field:' followed by items"
  | .unexpectedIndentation key => "unexpected indentation before '" ++ key ++ "'"
  | .inconsistentIndentation => "inconsistent indentation in detection"
  | .selectionWithValue selection =>
    "selection '" ++ selection ++ "' must map one field to its value(s)"
  | .duplicateSelection selection => "duplicate selection '" ++ selection ++ "'"
  | .nestedMapping field => "nested mapping under '" ++ field ++ "' is not supported"
  | .secondField selection =>
    "selection '" ++ selection ++
      "' already has a field; only one field per selection is supported"
  | .emptyField => "empty field name"
  | .chainedModifiers key => "chained modifiers are not supported: '" ++ key ++ "'"
  | .unsupportedModifier modifier => "unsupported modifier '" ++ modifier ++ "'"
  | .unclosedList => "unterminated inline list"
  | .unclosedQuote => "unterminated quote in inline list"
  | .operatorTerm term =>
    "boolean operator '" ++ term ++
      "' is not supported; conditions are a list of selection names"
  | .aggregateTerm term => "aggregate condition '" ++ term ++ "' is not supported"
  | .unsupportedTerm term => "unsupported condition term '" ++ term ++ "'"
  | .changedId assigned => "rule id cannot change once assigned (" ++ assigned ++ ")"

end Reason

/-- The line, counted from one, that a text is refused at. -/
structure ParseError where
  line : Nat
  reason : Reason
deriving DecidableEq, Repr

def ParseError.message (e : ParseError) : String :=
  "line " ++ toString e.line ++ ": " ++ e.reason.message

end SigmaDesk.RuleText
