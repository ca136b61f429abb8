import SigmaDesk.Number
import SigmaDesk.Text.Quoted
import SigmaDesk.Yaml.Timestamp

/-!
# Scalars in YAML

A plain scalar is a null, a truth value, a number, a date or a text, by its spelling alone. The
rules are those of version 1.1: `yes` is true, `017` is octal, `1:30` is ninety.
-/

namespace SigmaDesk.Yaml

inductive Scalar
  | null
  | bool (b : Bool)
  | number (n : Number)
  | timestamp (t : Timestamp)
  | text (s : String)
deriving DecidableEq, Repr

def splitSign : List Char → Bool × List Char
  | '-' :: cs => (true, cs)
  | '+' :: cs => (false, cs)
  | cs => (false, cs)

def digitValue (c : Char) : Nat :=
  if c.isDigit then c.toNat - 0x30
  else if 'a' ≤ c ∧ c ≤ 'f' then c.toNat - 0x61 + 10
  else c.toNat - 0x41 + 10

def isBinary (c : Char) : Bool := c == '0' || c == '1'

def isOctal (c : Char) : Bool := '0' ≤ c && c ≤ '7'

def isHex (c : Char) : Bool := c.isDigit || ('a' ≤ c && c ≤ 'f') || ('A' ≤ c && c ≤ 'F')

def isSpread (isDigit : Char → Bool) (cs : List Char) : Bool :=
  cs.all fun c => isDigit c || c == '_'

def natOf (base : Nat) (cs : List Char) : Nat :=
  (cs.filter (· != '_')).foldl (fun n c => n * base + digitValue c) 0

/-- Digits after the mark of a base; there has to be one that is no underscore. -/
def marked (base : Nat) (cs : List Char) : Except Fault Nat :=
  if cs.all (· == '_') then .error (.noDigits base) else .ok (natOf base cs)

def decimalDigits (cs : List Char) : Except Fault Nat :=
  let count := cs.countP (· != '_')
  if maxDigits < count then .error (.tooManyDigits count) else .ok (natOf 10 cs)

/-- One place of a number in base sixty: one digit, or two below sixty. -/
def isSixtieth : List Char → Bool
  | [c] => c.isDigit
  | [c, d] => '0' ≤ c && c ≤ '5' && d.isDigit
  | _ => false

def sixtieths? (cs : List Char) : Option (List (List Char)) :=
  match cs.splitOn ':' with
  | first :: second :: rest =>
    if first.head?.any Char.isDigit && isSpread Char.isDigit first &&
        (second :: rest).all isSixtieth then
      some (first :: second :: rest)
    else none
  | _ => none

def whole? : List Char → Option (Except Fault Nat)
  | ['0'] => some (.ok 0)
  | '0' :: 'b' :: cs => if !cs.isEmpty && isSpread isBinary cs then some (marked 2 cs) else none
  | '0' :: 'x' :: cs => if !cs.isEmpty && isSpread isHex cs then some (marked 16 cs) else none
  | '0' :: cs => if isSpread isOctal cs then some (.ok (natOf 8 cs)) else none
  | c :: cs =>
    if !c.isDigit then none
    else if isSpread Char.isDigit cs then some (decimalDigits (c :: cs))
    else
      (sixtieths? (c :: cs)).map fun places => do
        return (← places.mapM decimalDigits).foldl (fun n p => n * 60 + p) 0
  | [] => none

def exponent? : List Char → Option Int
  | [] => some 0
  | e :: sign :: cs =>
    if (e == 'e' || e == 'E') && !cs.isEmpty && cs.all Char.isDigit then
      if sign == '-' then some (-(natOf 10 cs : Int))
      else if sign == '+' then some (natOf 10 cs)
      else none
    else none
  | _ => none

def pointed (front places : List Char) (e : Int) : Number.Decimal :=
  let places := places.filter (· != '_')
  ⟨natOf 10 front * Nat.pow 10 places.length + natOf 10 places, e - places.length⟩

/-- Adds the places of a decimal in base sixty, last first, to a sum; `none` is a sum beyond the
largest double. The weight of a place, its product with the digit and the sum are each rounded. The
weight itself has to be a double. -/
def sixtiethsSum (weight : Nat) (sum : Option Number.Double) :
    List Number.Decimal → Except Fault (Option Number.Double)
  | [] => .ok sum
  | digit :: digits =>
    match Number.Double.ofNat? weight with
    | none => .error .tooManyPlaces
    | some w =>
      let product := (Number.Double.ofDecimal? digit).bind (·.mul? w)
      sixtiethsSum (weight * 60) (sum.bind fun s => product.bind s.add?) digits

def sixtiethsDecimal (negative : Bool) (digits : List Number.Decimal) : Except Fault Number := do
  match ← sixtiethsSum 1 (some ⟨0, -1074⟩) digits with
  | some d => return .decimal negative d.decimal
  | none => return .infinite negative

/-- A decimal without its sign: digits, a point, and maybe more digits and an exponent. Before the
point there may be nothing where a sign may not stand, or a number in base sixty. -/
def decimal? (negative signed : Bool) (cs : List Char) : Option (Except Fault Number) :=
  let front := cs.takeWhile (· != '.')
  match cs.dropWhile (· != '.') with
  | [] => none
  | _ :: back =>
    let isPlace (c : Char) : Bool := c.isDigit || c == '_'
    let places := back.takeWhile isPlace
    let rest := back.dropWhile isPlace
    let value (front : List Char) : Option (Except Fault Number) :=
      (exponent? rest).map fun e => .ok (.decimal negative (pointed front places e))
    if front.isEmpty then
      if signed || !back.head?.any Char.isDigit then none else value []
    else if front.head?.any Char.isDigit && isSpread Char.isDigit front then value front
    else if rest.isEmpty then
      (sixtieths? front).map fun parts =>
        let last := pointed (parts.getLastD []) places 0
        sixtiethsDecimal negative (last :: (parts.dropLast.map (pointed · [] 0)).reverse)
    else none

def nullWords : List String := ["", "~", "null", "Null", "NULL"]

def trueWords : List String :=
  ["yes", "Yes", "YES", "true", "True", "TRUE", "on", "On", "ON"]

def falseWords : List String :=
  ["no", "No", "NO", "false", "False", "FALSE", "off", "Off", "OFF"]

def infinityWords : List String := [".inf", ".Inf", ".INF"]

def undefinedWords : List String := [".nan", ".NaN", ".NAN"]

/-- The mark of a key whose mapping is merged into the one it stands in. -/
def mergeMark : String := "<<"

/-- A mark that means a value by default, and is a text only as a key. -/
def defaultMark : String := "="

def Scalar.ofPlain (s : String) : Except Fault Scalar :=
  let (negative, digits) := splitSign s.toList
  let signed := digits.length != s.length
  if nullWords.contains s then .ok .null
  else if trueWords.contains s then .ok (.bool true)
  else if falseWords.contains s then .ok (.bool false)
  else if undefinedWords.contains s then .ok (.number .undefined)
  else if infinityWords.contains (String.ofList digits) then .ok (.number (.infinite negative))
  else if s = mergeMark ∨ s = defaultMark then .error .malformed
  else
    match decimal? negative signed digits, whole? digits, timestamp? s.toList with
    | some x, _, _ => x.map .number
    | none, some (.ok n), _ => .ok (.number (.whole (if negative then -(n : Int) else n)))
    | none, some (.error e), _ => .error e
    | none, none, some t =>
      match t.fault? with
      | some e => .error e
      | none => .ok (.timestamp t)
    | none, none, none => .ok (.text s)

def Scalar.display : Scalar → String
  | .null => "None"
  | .bool true => "True"
  | .bool false => "False"
  | .number n => n.display
  | .timestamp t => t.text
  | .text s => s

def Scalar.nested : Scalar → String
  | .timestamp t => t.nested
  | .text s => Text.quoted s
  | s => s.display

def Scalar.isTooLong : Scalar → Bool
  | .number (.whole i) => Nat.pow 10 maxDigits ≤ i.natAbs
  | _ => false

def Scalar.number? : Scalar → Option Number
  | .bool b => some (.whole (if b then 1 else 0))
  | .number n => some n
  | _ => none

/-- Whether two scalars are the same key. Numbers are by their value, however they are written. -/
def Scalar.same (a b : Scalar) : Bool :=
  match a.number?, b.number? with
  | some m, some n => m.equals n
  | none, none => a == b
  | _, _ => false

end SigmaDesk.Yaml
