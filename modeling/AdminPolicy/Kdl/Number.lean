import AdminPolicy.Kdl.Char
import AdminPolicy.Text.Reader

/-!
# Numbers of KDL documents

A number has a sign or none and is written in base ten, with a fraction and an exponent if wanted, or in base 16, 8
or 2 behind `0x`, `0o` or `0b`. Underscores may stand between and behind digits. Every run of digits has to stay below
`runLimit`. The reader says where a number ends and leaves its value to those who need it.
-/

namespace AdminPolicy.Kdl

open Text

/-- What no run of digits reaches. -/
def runLimit : Nat := Nat.pow 2 127

/-- The value of a run of digits that goes on from `value`, and the text behind it. -/
def moreDigits (base value : Nat) : List Char → Nat × List Char
  | [] => (value, [])
  | c :: cs =>
    if c = '_' then moreDigits base value cs
    else
      match digitOf? base c with
      | some d => moreDigits base (value * base + d) cs
      | none => (value, c :: cs)

/-- The text behind a run of digits. -/
def afterDigits? (base : Nat) : List Char → Option (List Char)
  | [] => none
  | c :: cs =>
    match digitOf? base c with
    | none => none
    | some d =>
      let (value, rest) := moreDigits base d cs
      if value < runLimit then some rest else none

def afterSign : List Char → List Char
  | c :: cs => if isSign c then cs else c :: cs
  | [] => []

/-- The text behind a fraction, if there is one. -/
def afterFraction? : List Char → Option (List Char)
  | '.' :: cs => afterDigits? 10 cs
  | cs => some cs

def afterExponent? : List Char → Option (List Char)
  | c :: cs => if c = 'e' || c = 'E' then afterDigits? 10 (afterSign cs) else some (c :: cs)
  | [] => some []

/-- The base that the letter behind a zero stands for. -/
def baseOf? (c : Char) : Option Nat :=
  match c.toLower with
  | 'x' => some 16
  | 'o' => some 8
  | 'b' => some 2
  | _ => none

/-- The text behind a number without a sign. -/
def afterMagnitude? (cs : List Char) : Option (List Char) :=
  let decimal := do afterExponent? (← afterFraction? (← afterDigits? 10 cs))
  match cs with
  | '0' :: c :: rest =>
    match baseOf? c with
    | some base => afterDigits? base rest
    | none => decimal
  | _ => decimal

/-- Whether a number begins here: with a digit, perhaps behind a sign. -/
def beginsNumber (cs : List Char) : Bool := ((afterSign cs).head?).any Char.isDigit

/-- The spelling of the number at the front of a text, and the text behind it. -/
def number? : Reader String := fun cs =>
  (afterMagnitude? (afterSign cs)).bind fun rest =>
    if endsToken rest then some (String.ofList (cs.take (cs.length - rest.length)), rest) else none

end AdminPolicy.Kdl
