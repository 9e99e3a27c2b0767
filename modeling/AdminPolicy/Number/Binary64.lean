/-!
# Binary floating-point numbers

Numbers of the form `m · 2 ^ e` with a significand of 53 bits, in exact arithmetic on natural numbers. `nearest`
rounds a fraction, a tie going to the even significand; `shortest` finds the fewest decimal digits that are rounded
to a number, and of those the nearest.
-/

namespace AdminPolicy.Number

/-- The number `significand · 2 ^ exponent`. -/
structure Binary64 where
  significand : Nat
  exponent : Int
  deriving DecidableEq, Repr

/-- The number `digits · 10 ^ exponent`. -/
structure Decimal where
  digits : Nat
  exponent : Int
  deriving DecidableEq, Repr

structure Fraction where
  num : Nat
  den : Nat
  deriving DecidableEq, Repr

/-- The fraction `n · b ^ e`. -/
def Fraction.scaled (n b : Nat) (e : Int) : Fraction :=
  if 0 ≤ e then ⟨n * b.pow e.toNat, 1⟩ else ⟨n, b.pow (-e).toNat⟩

def Fraction.lt (a b : Fraction) : Bool := a.num * b.den < b.num * a.den

def Decimal.value (d : Decimal) : Fraction := .scaled d.digits 10 d.exponent

namespace Binary64

def minExponent : Int := -1074

def maxExponent : Int := 971

/-- The bits of a significand. -/
def precision : Nat := 53

def value (x : Binary64) : Fraction := .scaled x.significand 2 x.exponent

def zero : Binary64 := ⟨0, minExponent⟩

/-! ## Rounding -/

/-- The quotient rounded to the nearest natural number, a tie going to the even one. -/
def roundDiv (num den : Nat) : Nat :=
  let q := num / den
  let r := num % den
  if 2 * r < den then q
  else if den < 2 * r then q + 1
  else if q % 2 = 0 then q else q + 1

/-- The exponent with which a fraction has a significand of full length, or the least exponent. -/
def exponentFor (v : Fraction) : Int :=
  let guess : Int := v.num.log2 - v.den.log2 - precision
  let fits (e : Int) : Bool := v.lt (.scaled (Nat.pow 2 precision) 2 e)
  let e := if fits guess then guess else if fits (guess + 1) then guess + 1 else guess + 2
  max e minExponent

/-- The number nearest to a fraction, if it is not too great. -/
def nearest (v : Fraction) : Option Binary64 :=
  if v.num = 0 then some zero
  else
    let e := exponentFor v
    let m := if 0 ≤ e then roundDiv v.num (v.den * Nat.pow 2 e.toNat) else roundDiv (v.num * Nat.pow 2 (-e).toNat) v.den
    let (m, e) := if m = Nat.pow 2 precision then (Nat.pow 2 (precision - 1), e + 1) else (m, e)
    if maxExponent < e then none else some ⟨m, e⟩

/-! ## Shortest decimals -/

/-- The fractions that are rounded to a number: those between two ends, which belong to them if the significand is
even. -/
structure Interval where
  low : Fraction
  high : Fraction
  closed : Bool

/-- The fractions that are rounded to a number above zero. Below a power of two the neighbour is half as far. -/
def interval (x : Binary64) : Interval where
  low :=
    if x.significand = Nat.pow 2 (precision - 1) && minExponent < x.exponent then
      .scaled (4 * x.significand - 1) 2 (x.exponent - 2)
    else .scaled (2 * x.significand - 1) 2 (x.exponent - 1)
  high := .scaled (2 * x.significand + 1) 2 (x.exponent - 1)
  closed := x.significand % 2 = 0

def Interval.contains (i : Interval) (v : Fraction) : Bool :=
  if i.closed then !v.lt i.low && !i.high.lt v else i.low.lt v && v.lt i.high

/-- The quotient of a fraction and a power of ten, rounded down. -/
def floorAt (v : Fraction) (e : Int) : Nat :=
  if 0 ≤ e then v.num / (v.den * Nat.pow 10 e.toNat) else v.num * Nat.pow 10 (-e).toNat / v.den

/-- The neighbour of a value on the grid of multiples of `10 ^ e` that is in an interval; of two the nearer one, and the
greater one if both are as near. -/
def select? (i : Interval) (v : Fraction) (e : Int) : Option Decimal :=
  let below : Decimal := ⟨floorAt v e, e⟩
  let above : Decimal := ⟨floorAt v e + 1, e⟩
  match i.contains below.value, i.contains above.value with
  | true, false => some below
  | false, true => some above
  | false, false => none
  | true, true =>
    let middle : Fraction := .scaled (2 * floorAt v e + 1) 10 e
    if (⟨2 * v.num, v.den⟩ : Fraction).lt middle then some below else some above

/-- The first selected decimal on grids that get finer, the coarsest being that of multiples of `10 ^ e`. -/
def refine (i : Interval) (v : Fraction) : Nat → Int → Decimal
  | 0, e => ⟨floorAt v e, e⟩
  | n + 1, e => (select? i v e).getD (refine i v n (e - 1))

/-- An exponent of ten above a fraction that is above zero. -/
def decimalExponent (v : Fraction) : Int :=
  if v.den ≤ v.num then (v.num / v.den).log2 / 3 + 1 else -(((v.den / v.num).log2 : Int) / 4)

/-- The fewest decimal digits that are rounded to a number. A significand of 53 bits needs no more than 17; the grids
begin above the number. -/
def shortest (x : Binary64) : Decimal :=
  if x.significand = 0 then ⟨0, 0⟩
  else
    let top := decimalExponent x.value
    refine x.interval x.value 400 top

end Binary64

/-! ## Text -/

namespace Decimal

def digitChars (n : Nat) : List Char := Nat.toDigits 10 n

/-- A decimal in positional notation, with a point only if there are digits behind it. -/
def positional (d : Decimal) : List Char :=
  let digits := digitChars d.digits
  if 0 ≤ d.exponent then if d.digits = 0 then digits else digits ++ List.replicate d.exponent.toNat '0'
  else
    let places := (-d.exponent).toNat
    if places < digits.length then
      digits.take (digits.length - places) ++ '.' :: digits.drop (digits.length - places)
    else '0' :: '.' :: List.replicate (places - digits.length) '0' ++ digits

end Decimal

/-- A floating-point number with a sign, or none. -/
inductive Real64 where
  | finite (negative : Bool) (magnitude : Binary64)
  | infinite (negative : Bool)
  | nan
  deriving DecidableEq, Repr

namespace Real64

/-- The number nearest to a fraction with a sign. -/
def nearest (negative : Bool) (v : Fraction) : Real64 :=
  match Binary64.nearest v with
  | some x => .finite negative x
  | none => .infinite negative

/-- The decimal exponent from which on every number is too great, and below whose opposite every number is rounded
to zero. -/
def exponentBound : Int := 400

/-- The number nearest to `digits · 10 ^ exponent` with a sign. -/
def ofDecimal (negative : Bool) (digits : Nat) (exponent : Int) : Real64 :=
  let top := exponent + (Decimal.digitChars digits).length
  if digits = 0 || top < -exponentBound then .finite negative .zero
  else if exponentBound < top then .infinite negative
  else nearest negative (Decimal.value ⟨digits, exponent⟩)

def signText (negative : Bool) : String := if negative then "-" else ""

/-- A number in positional notation, with the fewest digits that are read back as the number. -/
def text : Real64 → String
  | finite negative x => signText negative ++ String.ofList x.shortest.positional
  | infinite negative => signText negative ++ "inf"
  | nan => "NaN"

end Real64

end AdminPolicy.Number
