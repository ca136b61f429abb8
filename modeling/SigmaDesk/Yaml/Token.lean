import SigmaDesk.Yaml.Quoted

/-!
# Tokens of YAML

Whether a scalar or a flow collection is the key of a mapping shows only at the colon after it, so
each possible key is kept in mind, and the colon puts the key token before it. Anchors, tags,
directives and block scalars are not part of this YAML.
-/

namespace SigmaDesk.Yaml

inductive Token
  | documentStart
  | documentEnd
  | blockSequence
  | blockMapping
  | blockEnd
  | openList
  | closeList
  | openMapping
  | closeMapping
  | comma
  | dash
  | key
  | value
  | plain (s : String)
  | quoted (s : String)
deriving DecidableEq, Repr

structure Position where
  index : Nat := 0
  line : Nat := 0
  column : Nat := 0
deriving DecidableEq, Repr

/-- The position after a character. A byte-order mark takes no column. -/
def Position.next (p : Position) (c : Char) : Position :=
  if isBreak c then ⟨p.index + 1, p.line + 1, 0⟩
  else if c = byteOrderMark then { p with index := p.index + 1 }
  else { p with index := p.index + 1, column := p.column + 1 }

def indicators : List Char := "-?:,[]\x7b\x7d#&*!|>'\"%@`".toList

/-- Whether a plain scalar starts here. A dash may start one if no blank follows it, and outside of
flow collections so may a question mark and a colon. -/
def startsPlain (flow : Bool) : List Char → Bool
  | [] => false
  | c :: cs =>
    !isGap c && !isBreak c &&
      (!indicators.contains c || (!endsWord cs && (c == '-' || (!flow && (c == '?' || c == ':')))))

def endsKey (flow : Bool) (cs : List Char) : Bool :=
  endsWord cs || (flow && cs.head?.any fun c => ",[]\x7b\x7d".toList.contains c)

def plainRun (flow : Bool) : List Char → List Char × List Char
  | [] => ([], [])
  | c :: cs =>
    if isGap c || isBreak c || (c == ':' && endsKey flow cs) ||
        (flow && ",?[]\x7b\x7d".toList.contains c) then
      ([], c :: cs)
    else
      let (s, rest) := plainRun flow cs
      (c :: s, rest)

/-- What stands between two runs of a plain scalar: its text, what follows, and, if it goes over
the end of a line, the column that it goes to. -/
structure PlainGap where
  text : List Char
  rest : List Char
  column : Option Nat

def plainLines (first : Char) : (more : List Char) → (column : Nat) → List Char → PlainGap
  | more, column, [] => ⟨foldedBreak first more, [], some column⟩
  | more, column, c :: cs =>
    if column = 0 ∧ startsMark (c :: cs) then ⟨[], c :: cs, some 0⟩
    else if c = ' ' then plainLines first more (column + 1) cs
    else if isBreak c then plainLines first (more ++ [breakText c]) 0 cs
    else ⟨foldedBreak first more, c :: cs, some column⟩

def plainGap (cs : List Char) : PlainGap :=
  match cs.dropWhile (· == ' ') with
  | c :: rest =>
    if isBreak c then plainLines c [] 0 rest else ⟨cs.takeWhile (· == ' '), c :: rest, none⟩
  | [] => ⟨cs, [], none⟩

/-- A plain scalar, what follows it, and whether a line ended behind it. It goes on over blanks, and
over the end of a line if the next line stands at `indent` or deeper. A number sign after a blank is
a comment. Each round takes at least one character. -/
def plainScalar (flow : Bool) (indent : Int) :
    (rounds : Nat) → List Char → List Char × List Char × Bool
  | 0, cs => ([], cs, false)
  | rounds + 1, cs =>
    let (run, rest) := plainRun flow cs
    let gap := plainGap rest
    let (next, _) := plainRun flow gap.rest
    if gap.text.isEmpty || gap.rest.head? == some '#' || next.isEmpty ||
        (!flow && gap.column.any fun n => (n : Int) < indent) then
      (run, gap.rest, gap.column.isSome)
    else
      let (more, rest, broken) := plainScalar flow indent rounds gap.rest
      (run ++ gap.text ++ more, rest, broken)

/-- Something that may turn out to be a key: which token it starts with and where. One that starts
at the indentation of its mapping has to be a key. -/
structure PossibleKey where
  token : Nat
  required : Bool
  start : Position
deriving DecidableEq, Repr

/-- How far a document is read. `depth` counts the flow collections that are open, and `indent` and
`outer` are the indentations of the block collections that are open, from inside to outside. At each
depth there is at most one possible key. -/
structure Reading where
  rest : List Char
  position : Position := {}
  depth : Nat := 0
  indent : Int := -1
  outer : List Int := []
  keyAllowed : Bool := true
  possible : List (Nat × PossibleKey) := []
  tokens : Array Token := #[]

namespace Reading

def maxKeyLength : Nat := 1024

def column (r : Reading) : Int := r.position.column

def inFlow (r : Reading) : Bool := r.depth != 0

def push (r : Reading) (t : Token) : Reading := { r with tokens := r.tokens.push t }

def insert (r : Reading) (place : Nat) (t : Token) : Reading :=
  { r with tokens := (r.tokens.extract 0 place).push t ++ r.tokens.extract place r.tokens.size }

def goTo (r : Reading) (rest : List Char) : Reading :=
  let read := r.rest.take (r.rest.length - rest.length)
  { r with rest, position := read.foldl Position.next r.position }

/-- Blanks, comments and ends of lines are left out; gives what follows and whether a line ended. -/
def blankRest (comment ended : Bool) : List Char → List Char × Bool
  | [] => ([], ended)
  | c :: cs =>
    if isBreak c then blankRest false true cs
    else if comment || c == ' ' then blankRest comment ended cs
    else if c = '#' then blankRest true ended cs
    else (c :: cs, ended)

/-- Goes to the next character that means something. A key may stand at the start of a line. -/
def skip (r : Reading) : Reading :=
  let rest :=
    match r.rest with
    | c :: cs => if r.position.index = 0 ∧ c = byteOrderMark then cs else c :: cs
    | [] => []
  let (rest, ended) := blankRest false false rest
  { r.goTo rest with keyAllowed := r.keyAllowed || (ended && !r.inFlow) }

def dropStale (r : Reading) : Except Fault Reading :=
  let isStale (k : PossibleKey) : Bool :=
    k.start.line != r.position.line || maxKeyLength < r.position.index - k.start.index
  let (stale, fresh) := r.possible.partition fun k => isStale k.2
  if stale.any (·.2.required) then .error .malformed else .ok { r with possible := fresh }

def forgetKey (r : Reading) : Except Fault Reading :=
  match r.possible.lookup r.depth with
  | some k =>
    if k.required then .error .malformed
    else .ok { r with possible := r.possible.filter (·.1 != r.depth) }
  | none => .ok r

def noteKey (r : Reading) : Except Fault Reading := do
  if r.keyAllowed then
    let r ← r.forgetKey
    let k : PossibleKey :=
      { token := r.tokens.size, required := !r.inFlow && r.indent == r.column
        start := r.position }
    return { r with possible := (r.depth, k) :: r.possible }
  else return r

def shallower (column : Int) : (indent : Int) → (outer : List Int) → Int × List Int × Nat
  | indent, [] => (indent, [], 0)
  | indent, i :: is =>
    if column < indent then
      let (indent, outer, n) := shallower column i is
      (indent, outer, n + 1)
    else (indent, i :: is, 0)

def closeBlocks (r : Reading) (column : Int) : Reading :=
  if r.inFlow then r
  else
    let (indent, outer, n) := shallower column r.indent r.outer
    { r with indent, outer, tokens := r.tokens ++ Array.replicate n Token.blockEnd }

/-- Opens a block collection at a column, if it is deeper than what is open. Its token stands at a
place. -/
def openBlock (r : Reading) (column : Int) (place : Nat) (t : Token) : Reading :=
  if r.indent < column then
    { r.insert place t with indent := column, outer := r.indent :: r.outer }
  else r

def mark (r : Reading) (t : Token) (keyAllowed : Bool) (rest : List Char) : Reading :=
  { (r.push t).goTo rest with keyAllowed }

def documentMark (r : Reading) (t : Token) (rest : List Char) : Except Fault Reading := do
  return (← (r.closeBlocks (-1)).forgetKey).mark t false rest

def openFlow (r : Reading) (t : Token) (rest : List Char) : Except Fault Reading := do
  let r ← r.noteKey
  return { r.mark t true rest with depth := r.depth + 1 }

def closeFlow (r : Reading) (t : Token) (rest : List Char) : Except Fault Reading := do
  let r ← r.forgetKey
  return { r.mark t false rest with depth := r.depth - 1 }

def blockMark (r : Reading) (opening t : Token) (rest : List Char) : Except Fault Reading := do
  if r.inFlow then return (← r.forgetKey).mark t (t == .dash) rest
  else if !r.keyAllowed then throw .malformed
  else
    let r := r.openBlock r.column r.tokens.size opening
    return (← r.forgetKey).mark t true rest

/-- A colon. The possible key before it becomes a key; without one the key is empty. -/
def colon (r : Reading) (rest : List Char) : Except Fault Reading := do
  match r.possible.lookup r.depth with
  | some k =>
    let r := { r.insert k.token .key with possible := r.possible.filter (·.1 != r.depth) }
    let r := if r.inFlow then r else r.openBlock k.start.column k.token .blockMapping
    return r.mark .value false rest
  | none =>
    if r.inFlow then return (← r.forgetKey).mark .value false rest
    else if !r.keyAllowed then throw .malformed
    else
      let r := r.openBlock r.column r.tokens.size .blockMapping
      return (← r.forgetKey).mark .value true rest

def quotedToken (r : Reading) (quote : Char) (cs : List Char) : Except Fault Reading := do
  let r ← r.noteKey
  let (s, rest) ← quotedRest quote (cs.length + 1) cs
  return r.mark (.quoted (String.ofList s)) false rest

def plainToken (r : Reading) : Except Fault Reading := do
  let r ← r.noteKey
  let (s, rest, broken) := plainScalar r.inFlow (r.indent + 1) r.rest.length r.rest
  return r.mark (.plain (String.ofList s)) broken rest

def token (r : Reading) (c : Char) (cs : List Char) : Except Fault Reading :=
  if r.position.column = 0 ∧ startsMark (c :: cs) then
    r.documentMark (if c = '-' then .documentStart else .documentEnd) (cs.drop 2)
  else if c = '[' then r.openFlow .openList cs
  else if c = '\x7b' then r.openFlow .openMapping cs
  else if c = ']' then r.closeFlow .closeList cs
  else if c = '\x7d' then r.closeFlow .closeMapping cs
  else if c = ',' then do return (← r.forgetKey).mark .comma true cs
  else if c = '-' ∧ endsWord cs then r.blockMark .blockSequence .dash cs
  else if c = '?' ∧ (r.inFlow ∨ endsWord cs) then r.blockMark .blockMapping .key cs
  else if c = ':' ∧ (r.inFlow ∨ endsWord cs) then r.colon cs
  else if c = '\'' ∨ c = '"' then r.quotedToken c cs
  else if startsPlain r.inFlow (c :: cs) then r.plainToken
  else .error .malformed

/-- Reads to the end. Each round takes at least one character. -/
def run : (rounds : Nat) → Reading → Except Fault (List Token)
  | 0, _ => .error .malformed
  | rounds + 1, r => do
    let r ← r.skip.dropStale
    let r := r.closeBlocks r.column
    match r.rest with
    | [] => return (← (r.closeBlocks (-1)).forgetKey).tokens.toList
    | c :: cs => run rounds (← r.token c cs)

end Reading

def tokens (text : List Char) : Except Fault (List Token) :=
  if text.all isAllowed then
    let cs := unifyReturns text
    Reading.run (cs.length + 1) { rest := cs }
  else .error .malformed

end SigmaDesk.Yaml
