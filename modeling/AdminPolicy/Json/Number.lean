import AdminPolicy.Config.Value
import AdminPolicy.Text.Reader

/-!
# Numbers of JSON documents

A number without fraction and exponent is an integer if it has 64 bits with a sign. Any other is a floating-point
number: the digits that fit into 64 bits, rounded, times a power of ten, rounded, and the product rounded again.
-/

namespace AdminPolicy.Json

open Text AdminPolicy.Number Config

/-- What the digits of a number come to: a significand of 64 bits, and the power of ten that it stands before. -/
structure Digits where
  significand : Nat := 0
  exponent : Int := 0
  /-- Whether a digit did not fit; the digits behind it do not count. -/
  full : Bool := false
  deriving DecidableEq, Repr

namespace Digits

def bound : Nat := Nat.pow 2 64

/-- The digits with one more before the point. -/
def addWhole (d : Digits) (c : Char) : Digits :=
  let n := d.significand * 10 + numberOf 10 [c]
  if d.full || bound ≤ n then { d with exponent := d.exponent + 1, full := true } else { d with significand := n }

/-- The digits with one more behind the point. -/
def addPlace (d : Digits) (c : Char) : Digits :=
  let n := d.significand * 10 + numberOf 10 [c]
  if d.full || bound ≤ n then { d with full := true } else { d with significand := n, exponent := d.exponent - 1 }

end Digits

/-- The greatest power of ten that is a floating-point number. -/
def maxPower : Int := 308

/-- The product of a floating-point number and a power of ten, if it is not too great. -/
def timesPower (x : Binary64) (e : Int) : Option Binary64 := do
  let p ← Binary64.nearest (.scaled 10 10 (e - 1))
  let a := x.value
  let b := p.value
  Binary64.nearest ⟨a.num * b.num, a.den * b.den⟩

def overPower (x : Binary64) (e : Int) : Option Binary64 := do
  let p ← Binary64.nearest (.scaled 10 10 (e - 1))
  let a := x.value
  let b := p.value
  Binary64.nearest ⟨a.num * b.den, a.den * b.num⟩

/-- A floating-point number times a power of ten, which is taken off in steps if it is small. Three steps leave
nothing of a significand of 64 bits. -/
def scale : Nat → Binary64 → Int → Option Binary64
  | 0, _, _ => some .zero
  | steps + 1, x, e =>
    if x.significand = 0 then some x
    else if maxPower < e then none
    else if 0 ≤ e then timesPower x e
    else if -maxPower ≤ e then overPower x (-e)
    else (overPower x maxPower).bind fun x => scale steps x (e + maxPower)

/-- The floating-point number of digits with a sign, if it is not too great. -/
def real? (negative : Bool) (d : Digits) : Option Scalar := do
  let x ← Binary64.nearest ⟨d.significand, 1⟩
  let x ← scale 4 x d.exponent
  pure (.real (.finite negative x))

/-- The number of digits without fraction and exponent. -/
def whole? (negative : Bool) (d : Digits) : Option Scalar :=
  if d.full then real? negative d
  else if negative then
    if d.significand = 0 || Nat.pow 2 63 < d.significand then real? true d else some (.integer (-(d.significand : Int)))
  else if Nat.pow 2 63 ≤ d.significand then real? false d
  else some (.integer d.significand)

/-- The exponents that are told apart. -/
def exponentBound : Nat := Nat.pow 2 31

/-- The number of digits with an exponent behind its letter. -/
def exponential? (negative : Bool) (d : Digits) : Reader Scalar := fun cs =>
  let (minus, cs) := match cs with
    | '-' :: rest => (true, rest)
    | '+' :: rest => (false, rest)
    | _ => (false, cs)
  let (digits, rest) := span Char.isDigit cs
  let n := numberOf 10 digits
  let e : Int := if minus then -n else n
  let number : Option Scalar :=
    if n < exponentBound then real? negative { d with exponent := d.exponent + e }
    else if d.significand = 0 || minus then some (.real (.finite negative .zero))
    else none
  if digits = [] then none else number.map (·, rest)

def beginsExponent (cs : List Char) : Bool := cs.head? = some 'e' || cs.head? = some 'E'

/-- The digits before the point: a zero stands alone. -/
def wholeDigits? : Reader (List Char)
  | '0' :: cs => if cs.head?.any Char.isDigit then none else some (['0'], cs)
  | cs =>
    let (digits, rest) := span Char.isDigit cs
    if digits = [] then none else some (digits, rest)

def number? : Reader Scalar := fun cs => do
  let (negative, cs) := match cs with
    | '-' :: rest => (true, rest)
    | _ => (false, cs)
  let (digits, rest) ← wholeDigits? cs
  let d := digits.foldl Digits.addWhole {}
  match rest with
  | '.' :: rest =>
    let (places, rest) := span Char.isDigit rest
    let d := places.foldl Digits.addPlace { d with full := false }
    if places = [] then none
    else if beginsExponent rest then exponential? negative d (rest.drop 1)
    else (real? negative d).map (·, rest)
  | _ => if beginsExponent rest then exponential? negative d (rest.drop 1) else (whole? negative d).map (·, rest)

end AdminPolicy.Json
