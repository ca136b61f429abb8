import SigmaDesk.Value.Display

/-!
# Selections

A selection is one named matcher: a field, a modifier that says how to compare, and either one text
or a list of texts, so style and value cannot disagree.
-/

namespace SigmaDesk

inductive Style
  | value
  | list
deriving DecidableEq, Repr

inductive Matcher
  | one (text : String)
  | many (items : List String)
deriving DecidableEq, Repr

structure Selection where
  name : String
  fieldKey : String := ""
  modifier : Option String := none
  matcher : Matcher := .one ""
deriving DecidableEq, Repr

def modifiers : List String := ["contains", "startswith", "endswith", "re", "all"]

inductive SelectionError
  | unknownStyle (style : Value)
  | notOneText (selection : String)
deriving Repr

namespace SelectionError

def message : SelectionError → String
  | .unknownStyle style => style.nested ++ " is not a valid MatchStyle"
  | .notOneText selection =>
    "Selection '" ++ selection ++ "': a value-style selection takes a single string"

end SelectionError

namespace Style

def text : Style → String
  | .value => "value"
  | .list => "list"

def ofText? (s : String) : Option Style :=
  if s = "value" then some .value else if s = "list" then some .list else none

@[simp] theorem ofText?_text (s : Style) : ofText? s.text = some s := by cases s <;> rfl

def ofValue : Value → Except SelectionError Style
  | .text s =>
    match ofText? s with
    | some style => .ok style
    | none => .error (.unknownStyle (.text s))
  | v => .error (.unknownStyle v)

end Style

namespace Matcher

def style : Matcher → Style
  | .one _ => .value
  | .many _ => .list

def itemsOf (s : String) : List String := if s.isEmpty then [] else [s]

/-- The texts to compare with; an empty single text is none. -/
def values : Matcher → List String
  | .one s => itemsOf s
  | .many items => items

def isComplete : Matcher → Bool
  | .one s => !s.isEmpty
  | .many items => items.any (!·.isEmpty)

/-- Changes the style and carries the first text over. -/
def switchTo : Style → Matcher → Matcher
  | .list, .one s => .many (itemsOf s)
  | .value, .many items => .one (items.headD "")
  | _, m => m

@[simp] theorem style_switchTo (s : Style) (m : Matcher) : (m.switchTo s).style = s := by
  cases s <;> cases m <;> rfl

@[simp] theorem switchTo_style (m : Matcher) : m.switchTo m.style = m := by cases m <;> rfl

/-- The matcher of a stated style: a single text serves for a list, a list not for a single text. -/
def withStyle (selection : String) : Style → Matcher → Except SelectionError Matcher
  | .list, .one s => .ok (.many (itemsOf s))
  | .value, .many _ => .error (.notOneText selection)
  | _, m => .ok m

end Matcher

namespace Selection

def style (s : Selection) : Style := s.matcher.style

def key (s : Selection) : String :=
  match s.modifier with
  | some m => if m.isEmpty then s.fieldKey else s.fieldKey ++ "|" ++ m
  | none => s.fieldKey

def values (s : Selection) : List String := s.matcher.values

def isComplete (s : Selection) : Bool := !s.fieldKey.isEmpty && s.matcher.isComplete

def switchStyle (style : Style) (s : Selection) : Selection :=
  { s with matcher := s.matcher.switchTo style }

def make (name fieldKey : String) (modifier : Option String) (style : Value) (matcher : Matcher) :
    Except SelectionError Selection := do
  let matcher ← matcher.withStyle name (← Style.ofValue style)
  return { name, fieldKey, modifier, matcher }

end Selection

end SigmaDesk
