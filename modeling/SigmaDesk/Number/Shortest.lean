/-!
# Shortest decimals

A decimal number is held in double precision, halves going to the even one. What is shown of it is
the decimal with the fewest digits that rounds to the same double, and of those the nearest. All of
it is exact arithmetic on natural numbers.
-/

namespace SigmaDesk.Number

/-- The value `mantissa * 2 ^ exponent`. -/
structure Double where
  mantissa : Nat
  exponent : Int
deriving DecidableEq, Repr

/-- The value `digits * 10 ^ exponent`. -/
structure Decimal where
  digits : Nat
  exponent : Int
deriving DecidableEq, Repr

structure Fraction where
  num : Nat
  den : Nat
deriving DecidableEq, Repr

def Fraction.ofPower (n base : Nat) (e : Int) : Fraction :=
  if 0 ≤ e then ⟨n * base.pow e.toNat, 1⟩ else ⟨n, base.pow (-e).toNat⟩

def Fraction.add (x y : Fraction) : Fraction := ⟨x.num * y.den + y.num * x.den, x.den * y.den⟩

def Fraction.mul (x y : Fraction) : Fraction := ⟨x.num * y.num, x.den * y.den⟩

def Fraction.le (x y : Fraction) : Bool := x.num * y.den ≤ y.num * x.den

def Fraction.lt (x y : Fraction) : Bool := x.num * y.den < y.num * x.den

def Fraction.floor (x : Fraction) : Nat := x.num / x.den

/-- The nearest natural number; a half goes to the even one. -/
def Fraction.round (x : Fraction) : Nat :=
  let q := x.num / x.den
  let r := 2 * (x.num % x.den)
  if r < x.den then q else if x.den < r then q + 1 else q + q % 2

def Double.ofFraction? (x : Fraction) : Option Double :=
  if x.num = 0 then some ⟨0, -1074⟩
  else
    -- The logarithms leave two exponents to choose from: `low`, and the next one if the mantissa
    -- would have too many bits.
    let low : Int := max ((x.num.log2 : Int) - x.den.log2 - 53) (-1074)
    let scaled (q : Int) := x.mul (.ofPower 1 2 (-q))
    let q := if (scaled low).floor < Nat.pow 2 53 then low else low + 1
    let m := (scaled q).round
    let d : Double := if m = Nat.pow 2 53 then ⟨Nat.pow 2 52, q + 1⟩ else ⟨m, q⟩
    if 971 < d.exponent then none else some d

def Double.fraction (d : Double) : Fraction := .ofPower d.mantissa 2 d.exponent

def Double.ofNat? (n : Nat) : Option Double := ofFraction? ⟨n, 1⟩

def Double.add? (x y : Double) : Option Double := ofFraction? (x.fraction.add y.fraction)

def Double.mul? (x y : Double) : Option Double := ofFraction? (x.fraction.mul y.fraction)

def Double.decimal (d : Double) : Decimal :=
  if 0 ≤ d.exponent then ⟨d.mantissa * Nat.pow 2 d.exponent.toNat, 0⟩
  else ⟨d.mantissa * Nat.pow 5 (-d.exponent).toNat, d.exponent⟩

/-- The double nearest to a decimal, or `none` beyond the largest. The first digit tells early when
a decimal is far too large or too small. -/
def Double.ofDecimal? (x : Decimal) : Option Double :=
  let place := x.exponent + (Nat.toDigits 10 x.digits).length
  if x.digits = 0 ∨ place < -400 then some ⟨0, -1074⟩
  else if 400 < place then none
  else ofFraction? (.ofPower x.digits 10 x.exponent)

/-- Four times the value, four times the ends of the interval that rounds to it, in units of
`2 ^ (exponent - 2)`. -/
def Double.bounds (d : Double) : Nat × Nat × Nat :=
  let below := if d.mantissa = Nat.pow 2 52 ∧ -1074 < d.exponent then 1 else 2
  (4 * d.mantissa, 4 * d.mantissa - below, 4 * d.mantissa + 2)

def Double.holds (d : Double) (x : Decimal) : Bool :=
  let unit := Fraction.ofPower 1 2 (d.exponent - 2)
  let (_, lo, hi) := d.bounds
  let v := Fraction.ofPower x.digits 10 x.exponent
  let lo := unit.mul ⟨lo, 1⟩
  let hi := unit.mul ⟨hi, 1⟩
  if d.mantissa % 2 = 0 then lo.le v && v.le hi else lo.lt v && v.lt hi

/-- The place of the first digit: the largest `e` with `10 ^ e ≤ x`, for a positive `x` that is at
least `10 ^ (-fuel)`. -/
def Fraction.leadingPlace (x : Fraction) : (fuel : Nat) → Int
  | 0 => 0
  | fuel + 1 =>
    if x.den ≤ x.num then ((Nat.toDigits 10 x.floor).length : Int) - 1
    else (Fraction.mk (x.num * 10) x.den).leadingPlace fuel - 1

/-- The nearer of the two decimals with `count` digits next to the double that rounds to it, if one
does. Of two at the same distance the even one is taken. -/
def Double.decimalOf? (d : Double) (place : Int) (count : Nat) : Option Decimal :=
  let unit := place - count + 1
  let value := d.fraction
  let scaled := value.mul (.ofPower 1 10 (-unit))
  let near := scaled.round
  let far := if near = scaled.floor then near + 1 else scaled.floor
  if d.holds ⟨near, unit⟩ then some ⟨near, unit⟩
  else if d.holds ⟨far, unit⟩ then some ⟨far, unit⟩
  else none

/-- The shortest decimal that rounds to the double. Seventeen digits always do. -/
def Double.shortest (d : Double) : Decimal :=
  let value := d.fraction
  let place := value.leadingPlace 400
  ((List.range 17).findSome? fun i => d.decimalOf? place (i + 1)).getD ⟨0, 0⟩

/-- How a decimal is laid out: positional from `10 ^ lowest` to below `10 ^ highest`, with at least
one digit after the point; otherwise with an exponent of two digits or more. -/
structure Layout where
  lowest : Int
  highest : Int
deriving DecidableEq, Repr

def Layout.standard : Layout := ⟨-4, 16⟩

def significant (n : Nat) : List Char :=
  ((Nat.toDigits 10 n).reverse.dropWhile (· == '0')).reverse

def exponentText (e : Int) : List Char :=
  let ds := Nat.toDigits 10 e.natAbs
  (if e < 0 then '-' else '+') :: (if ds.length < 2 then '0' :: ds else ds)

def Layout.text (l : Layout) (x : Decimal) : List Char :=
  let count := (Nat.toDigits 10 x.digits).length
  let ds := significant x.digits
  let place : Int := x.exponent + count - 1
  if l.lowest ≤ place ∧ place < l.highest then
    if place < 0 then '0' :: '.' :: List.replicate (-place - 1).toNat '0' ++ ds
    else
      let whole := place.toNat + 1
      let ds := ds ++ List.replicate (whole - ds.length) '0'
      let rest := ds.drop whole
      ds.take whole ++ '.' :: (if rest.isEmpty then ['0'] else rest)
  else
    match ds with
    | [] => []
    | d :: rest =>
      (d :: (if rest.isEmpty then [] else '.' :: rest)) ++ 'e' :: exponentText place

end SigmaDesk.Number
