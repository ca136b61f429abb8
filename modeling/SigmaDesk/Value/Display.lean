import SigmaDesk.Text.Quoted
import SigmaDesk.Value

/-!
# Values as text

Where a text is wanted and a document gives another value, the value's text stands in: `None`,
`True`, `7`, `1.5`, a list between brackets, an object between braces.
-/

namespace SigmaDesk.Value

mutual

def nested : Value → String
  | .null => "None"
  | .bool true => "True"
  | .bool false => "False"
  | .number n => n.display
  | .text s => Text.quoted s
  | .list items => "[" ++ ", ".intercalate (nestedItems items) ++ "]"
  | .object entries => "\x7b" ++ ", ".intercalate (nestedEntries entries) ++ "\x7d"

def nestedItems : List Value → List String
  | [] => []
  | v :: vs => nested v :: nestedItems vs

def nestedEntries : List (String × Value) → List String
  | [] => []
  | (k, v) :: es => (Text.quoted k ++ ": " ++ nested v) :: nestedEntries es

end

def display : Value → String
  | .text s => s
  | v => nested v

def kind : Value → String
  | .null => "NoneType"
  | .bool _ => "bool"
  | .number (.whole _) => "int"
  | .number _ => "float"
  | .text _ => "str"
  | .list _ => "list"
  | .object _ => "dict"

@[simp] theorem display_text (s : String) : (text s).display = s := rfl

end SigmaDesk.Value
