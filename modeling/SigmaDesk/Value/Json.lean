import SigmaDesk.Text.Digits
import SigmaDesk.Value

/-!
# Published payloads

A value as JSON in ASCII, with a space after each comma and colon and the entries in order. A
character outside ASCII is escaped by its UTF-16 units.
-/

namespace SigmaDesk.Value

def units16 (c : Char) : List Nat :=
  let n := c.toNat
  if n < 0x10000 then [n]
  else [0xD800 + (n - 0x10000) / 0x400, 0xDC00 + (n - 0x10000) % 0x400]

def escapeChar (c : Char) : List Char :=
  if c = '"' ∨ c = '\\' then ['\\', c]
  else if c = '\n' then ['\\', 'n']
  else if c = '\r' then ['\\', 'r']
  else if c = '\t' then ['\\', 't']
  else if c = '\x08' then ['\\', 'b']
  else if c = '\x0c' then ['\\', 'f']
  else if ' ' ≤ c ∧ c ≤ '~' then [c]
  else (units16 c).flatMap fun u => '\\' :: 'u' :: Text.hex 4 u

def jsonText (s : String) : String :=
  String.ofList ('"' :: s.toList.flatMap escapeChar ++ ['"'])

mutual

def json : Value → String
  | .null => "null"
  | .bool true => "true"
  | .bool false => "false"
  | .number n => n.json
  | .text s => jsonText s
  | .list items => "[" ++ ", ".intercalate (jsonItems items) ++ "]"
  | .object entries => "\x7b" ++ ", ".intercalate (jsonEntries entries) ++ "\x7d"

def jsonItems : List Value → List String
  | [] => []
  | v :: vs => json v :: jsonItems vs

def jsonEntries : List (String × Value) → List String
  | [] => []
  | (k, v) :: es => (jsonText k ++ ": " ++ json v) :: jsonEntries es

end

end SigmaDesk.Value
