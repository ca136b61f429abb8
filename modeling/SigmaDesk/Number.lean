import SigmaDesk.Number.Shortest

/-!
# Numbers

The numbers that documents and catalogs hold: whole numbers of any size, and decimals in double
precision with their two infinities and the undefined value.
-/

namespace SigmaDesk

/-- A decimal is given as written: sign, digits and a power of ten. -/
inductive Number
  | whole (i : Int)
  | decimal (negative : Bool) (value : Number.Decimal)
  | infinite (negative : Bool)
  | undefined
deriving DecidableEq, Repr

namespace Number

structure Words where
  infinite : String
  undefined : String

def signed (negative : Bool) (s : String) : String := if negative then "-" ++ s else s

/-- The text of a number. A decimal beyond the largest double is infinite. -/
def text (words : Words) : Number → String
  | .whole i => toString i
  | .decimal negative x =>
    match Double.ofDecimal? x with
    | some d =>
      if d.mantissa = 0 then signed negative "0.0"
      else signed negative (String.ofList (Layout.standard.text d.shortest))
    | none => signed negative words.infinite
  | .infinite negative => signed negative words.infinite
  | .undefined => words.undefined

def display : Number → String := text ⟨"inf", "nan"⟩

def json : Number → String := text ⟨"Infinity", "NaN"⟩

def magnitude? : Number → Option (Bool × Option Fraction)
  | .whole i => some (i < 0, some ⟨i.natAbs, 1⟩)
  | .decimal negative x => some (negative, (Double.ofDecimal? x).map (·.fraction))
  | .infinite negative => some (negative, none)
  | .undefined => none

/-- Whether two numbers have the same value. What is undefined equals nothing. -/
def equals (m n : Number) : Bool :=
  match m.magnitude?, n.magnitude? with
  | some (negative, some x), some (negative', some y) =>
    x.le y && y.le x && (negative == negative' || x.num == 0)
  | some (negative, none), some (negative', none) => negative == negative'
  | _, _ => false

def isZero (n : Number) : Bool := n.equals (.whole 0)

end Number

end SigmaDesk
