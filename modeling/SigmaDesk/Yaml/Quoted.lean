import SigmaDesk.Yaml.Character
import SigmaDesk.Yaml.Scalar

/-!
# Quoted scalars

Text between single quotes, where a quote is written twice, or between double quotes, where a
backslash starts an escape. A quoted scalar may go over several lines; their ends are folded.
-/

namespace SigmaDesk.Yaml

def escaped? (c : Char) : Option Char :=
  match c with
  | '0' => some '\x00'
  | 'a' => some '\x07'
  | 'b' => some '\x08'
  | 't' | '\t' => some '\t'
  | 'n' => some '\n'
  | 'v' => some '\x0b'
  | 'f' => some '\x0c'
  | 'r' => some '\r'
  | 'e' => some '\x1b'
  | ' ' => some ' '
  | '"' => some '"'
  | '/' => some '/'
  | '\\' => some '\\'
  | 'N' => some (Char.ofNat 0x85)
  | '_' => some (Char.ofNat 0xA0)
  | 'L' => some (Char.ofNat 0x2028)
  | 'P' => some (Char.ofNat 0x2029)
  | _ => none

def escapeWidth? (c : Char) : Option Nat :=
  if c = 'x' then some 2 else if c = 'u' then some 4 else if c = 'U' then some 8 else none

def hexEscape? : List Char → Option (Nat × List Char)
  | [] => none
  | c :: cs =>
    (escapeWidth? c).bind fun width =>
      let digits := cs.take width
      if digits.length = width ∧ digits.all isHex then some (natOf 16 digits, cs.drop width)
      else none

def isHighHalf (n : Nat) : Bool := 0xD800 ≤ n && n < 0xDC00

def isLowHalf (n : Nat) : Bool := 0xDC00 ≤ n && n < 0xE000

/-- The character of a code, and what follows it. Two halves of a pair that are escaped one after
the other are one character; a half alone is replaced. -/
def ofCode (n : Nat) (rest : List Char) : Except Fault (Char × List Char) :=
  let replacement := Char.ofNat 0xFFFD
  if 0x80000000 ≤ n then .error .wideCharacter
  else if 0x110000 ≤ n then .error .noCharacter
  else if isHighHalf n then
    match rest with
    | '\\' :: cs =>
      match hexEscape? cs with
      | some (m, after) =>
        if isLowHalf m then
          .ok (Char.ofNat (0x10000 + (n - 0xD800) * 0x400 + (m - 0xDC00)), after)
        else .ok (replacement, rest)
      | none => .ok (replacement, rest)
    | _ => .ok (replacement, rest)
  else if isLowHalf n then .ok (replacement, rest)
  else .ok (Char.ofNat n, rest)

/-- The empty lines at the start, as text, and what follows them without the blanks before it. No
document mark may stand at the start of a line. `atStart` says whether a line starts here. -/
def emptyLines? : (atStart : Bool) → List Char → Option (List Char × List Char)
  | _, [] => some ([], [])
  | atStart, c :: cs =>
    if atStart && startsMark (c :: cs) then none
    else if isGap c then emptyLines? false cs
    else if isBreak c then (emptyLines? true cs).map fun (more, rest) => (breakText c :: more, rest)
    else some ([], c :: cs)

/-- Blanks inside a quoted scalar, as text, and what follows them: they stand for themselves, but
around the end of a line they are left out. -/
def quotedGap (cs : List Char) : Except Fault (List Char × List Char) :=
  match cs.dropWhile isGap with
  | [] => .error .malformed
  | c :: rest =>
    if isBreak c then
      match emptyLines? true rest with
      | some (more, rest) => .ok (foldedBreak c more, rest)
      | none => .error .malformed
    else .ok (cs.takeWhile isGap, c :: rest)

def escape : List Char → Except Fault (List Char × List Char)
  | [] => .error .malformed
  | c :: cs =>
    if isBreak c then
      match emptyLines? true cs with
      | some r => .ok r
      | none => .error .malformed
    else
      match escaped? c, hexEscape? (c :: cs) with
      | some d, _ => .ok ([d], cs)
      | none, some (n, rest) => (ofCode n rest).map fun (d, rest) => ([d], rest)
      | none, none => .error .malformed

/-- The rest of a quoted scalar, as text, and what follows it. Each round takes at least one
character, so a round for each is enough. -/
def quotedRest (quote : Char) : (rounds : Nat) → List Char → Except Fault (List Char × List Char)
  | 0, _ | _, [] => .error .malformed
  | rounds + 1, c :: cs => do
    if quote = '\'' ∧ c = '\'' ∧ cs.head? = some '\'' then
      let (s, rest) ← quotedRest quote rounds (cs.drop 1)
      return ('\'' :: s, rest)
    else if c = quote then return ([], cs)
    else
      let (piece, rest) ←
        if isGap c || isBreak c then quotedGap (c :: cs)
        else if quote = '"' ∧ c = '\\' then escape cs
        else pure ([c], cs)
      let (s, rest) ← quotedRest quote rounds rest
      return (piece ++ s, rest)

end SigmaDesk.Yaml
