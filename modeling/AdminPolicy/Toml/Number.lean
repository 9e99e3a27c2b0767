import AdminPolicy.Number.Binary64
import AdminPolicy.Text.Reader

/-!
# Numbers of TOML documents

Integers of 64 bits in base ten, or without a sign in base 16, 8 or 2, and floating-point numbers. An underscore can
stand between two digits. A number in base ten has no leading zero.
-/

namespace AdminPolicy.Toml

open Text AdminPolicy.Number

/-- Digits of a base, with underscores between them, and the text behind them. -/
def moreDigits (base : Nat) : List Char → List Char × List Char
  | [] => ([], [])
  | '_' :: c :: cs =>
    if isDigitOf base c then
      let (digits, rest) := moreDigits base cs
      (c :: digits, rest)
    else ([], '_' :: c :: cs)
  | c :: cs =>
    if isDigitOf base c then
      let (digits, rest) := moreDigits base cs
      (c :: digits, rest)
    else ([], c :: cs)

/-- At least one digit of a base. -/
def digits? (base : Nat) : Reader (List Char)
  | [] => none
  | c :: cs =>
    if isDigitOf base c then
      let (digits, rest) := moreDigits base cs
      some (c :: digits, rest)
    else none

/-- The digits of an integer in base ten: a zero stands alone. -/
def wholeDigits? : Reader (List Char)
  | '0' :: cs => some (['0'], cs)
  | cs => digits? 10 cs

/-- A sign, if there is one, and whether it is a minus. -/
def takeSign : List Char → Bool × List Char
  | '-' :: cs => (true, cs)
  | '+' :: cs => (false, cs)
  | cs => (false, cs)

def signed (negative : Bool) (n : Nat) : Int := if negative then -n else n

def isInteger64 (i : Int) : Bool := -Nat.pow 2 63 ≤ i && i < Nat.pow 2 63

/-- An integer in a base that its letter tells. -/
def basedInteger? (base : Nat) : Reader Int := fun cs =>
  (digits? base cs).bind fun (digits, rest) =>
    let i : Int := numberOf base digits
    if isInteger64 i then some (i, rest) else none

def decimalInteger? : Reader Int := fun cs =>
  let (negative, cs) := takeSign cs
  (wholeDigits? cs).bind fun (digits, rest) =>
    let i := signed negative (numberOf 10 digits)
    if isInteger64 i then some (i, rest) else none

def integer? : Reader Int := fun cs =>
  match cs with
  | '0' :: 'x' :: cs => basedInteger? 16 cs
  | '0' :: 'o' :: cs => basedInteger? 8 cs
  | '0' :: 'b' :: cs => basedInteger? 2 cs
  | cs => decimalInteger? cs

/-- The exponent behind its letter. -/
def exponent? : Reader Int := fun cs =>
  let (negative, cs) := takeSign cs
  (digits? 10 cs).map fun (digits, rest) => (signed negative (numberOf 10 digits), rest)

def beginsExponent (cs : List Char) : Bool := cs.head? = some 'e' || cs.head? = some 'E'

/-- A floating-point number, unless it is too great to be one. -/
def finite (negative : Bool) (whole places : List Char) (exponent : Int) : Option Real64 :=
  match Real64.ofDecimal negative (numberOf 10 (whole ++ places)) (exponent - places.length) with
  | .infinite false => none
  | x => some x

/-- A floating-point number in digits: it has a fraction or an exponent. -/
def digitReal? : Reader Real64 := fun cs => do
  let (negative, cs) := takeSign cs
  let (whole, rest) ← wholeDigits? cs
  match rest with
  | '.' :: rest =>
    let (places, rest) ← digits? 10 rest
    if beginsExponent rest then
      let (e, rest) ← exponent? (rest.drop 1)
      (finite negative whole places e).map (·, rest)
    else (finite negative whole places 0).map (·, rest)
  | _ =>
    if beginsExponent rest then
      let (e, rest) ← exponent? (rest.drop 1)
      (finite negative whole [] e).map (·, rest)
    else none

/-- Infinity or no number at all. -/
def specialReal? : Reader Real64 := fun cs =>
  let (negative, cs) := takeSign cs
  match word? "inf" cs, word? "nan" cs with
  | some rest, _ => some (.infinite negative, rest)
  | _, some rest => some (.nan, rest)
  | _, _ => none

def real? : Reader Real64 := fun cs => (specialReal? cs).or (digitReal? cs)

end AdminPolicy.Toml
