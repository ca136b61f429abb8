/-!
# Characters in YAML

Which characters a document may hold, and which of them end a line or stand between words.
-/

namespace SigmaDesk.Yaml

def isAllowed (c : Char) : Bool :=
  let n := c.toNat
  n == 0x09 || n == 0x0A || n == 0x0D || (0x20 ≤ n && n ≤ 0x7E) || n == 0x85 ||
    (0xA0 ≤ n && n ≤ 0xD7FF) || (0xE000 ≤ n && n ≤ 0xFFFD) || 0x10000 ≤ n

def unifyReturns : List Char → List Char
  | '\r' :: '\n' :: cs => '\n' :: unifyReturns cs
  | '\r' :: cs => '\n' :: unifyReturns cs
  | c :: cs => c :: unifyReturns cs
  | [] => []

def isBreak (c : Char) : Bool :=
  c == '\n' || c.toNat == 0x85 || c.toNat == 0x2028 || c.toNat == 0x2029

/-- What the end of a line is in a text: the two separators stand for themselves, and all others for
a line feed. -/
def breakText (c : Char) : Char := if c.toNat = 0x85 then '\n' else c

def isGap (c : Char) : Bool := c == ' ' || c == '\t'

def byteOrderMark : Char := Char.ofNat 0xFEFF

def endsWord (cs : List Char) : Bool := cs.head?.all fun c => isGap c || isBreak c

def startsMark (cs : List Char) : Bool :=
  (['-', '-', '-'].isPrefixOf cs || ['.', '.', '.'].isPrefixOf cs) && endsWord (cs.drop 3)

/-- What the end of a line and the ends of the empty lines after it come to in a text: one line feed
alone is a space, and before others it is left out. -/
def foldedBreak (first : Char) (more : List Char) : List Char :=
  if breakText first ≠ '\n' then first :: more
  else if more.isEmpty then [' ']
  else more

end SigmaDesk.Yaml
