import SigmaDesk.RuleText.Scalar
import SigmaDesk.Text.Lines

/-!
# Lines of rule text

Blank lines and comments mean nothing, and blanks at the end of a line do not count. What is left
has an indentation, counted in spaces, and is a list item, an entry with a key, or neither.
-/

namespace SigmaDesk.RuleText

/-- What a line says. A value is as written, without blanks around it. -/
inductive Content
  | item (value : List Char)
  | entry (key : String) (value : List Char)
  | other
deriving DecidableEq, Repr

structure Line where
  indent : Nat
  body : List Char
deriving DecidableEq, Repr

inductive RawLine
  | skipped
  | documentMark
  | tabbed
  | line (l : Line)
deriving DecidableEq, Repr

namespace RawLine

def ofChars (raw : List Char) : RawLine :=
  let kept := Text.trimRight raw
  let body := Text.trimLeft kept
  if body.isEmpty || body.head? == some '#' then .skipped
  else if body == ['-', '-', '-'] then .documentMark
  else if kept.head? == some '\t' then .tabbed
  else .line ⟨(kept.takeWhile (· == ' ')).length, body⟩

end RawLine

def startsKey (c : Char) : Bool :=
  !Text.isBlank c && !(":#'\"-".toList.contains c)

/-- Splits `key: value` at the first colon, which a space or a tab follows unless it ends the
line. -/
def splitEntry? (body : List Char) : Option (List Char × List Char) :=
  if body.head?.any startsKey then
    match body.dropWhile (· != ':') with
    | _ :: after =>
      if after.head?.all (fun c => c == ' ' || c == '\t') then
        some (Text.trim (body.takeWhile (· != ':')), Text.trim after)
      else none
    | [] => none
  else none

def Content.ofBody (body : List Char) : Content :=
  if body == ['-'] || ['-', ' '].isPrefixOf body then .item (Text.trim (body.drop 1))
  else
    match splitEntry? body with
    | some (key, value) => .entry (String.ofList key) value
    | none => .other

def Line.content (l : Line) : Content := .ofBody l.body

end SigmaDesk.RuleText
