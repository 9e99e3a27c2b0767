/-!
# Reading from the front of a text

A `Reader` takes a thing off the front of a text and hands on the rest, or finds none. A `Skipper` takes a piece that
does not matter. `skipMany` takes as many pieces as there are.
-/

namespace AdminPolicy.Text

/-- What is read off the front of a text, with the text behind it. -/
abbrev Reader (α : Type) := List Char → Option (α × List Char)

/-- Takes one piece off the front of a text, if there is one. -/
abbrev Skipper := List Char → Option (List Char)

/-- The text after at most as many pieces as `bound` has characters. -/
def skipWithin (skip : Skipper) : List Char → List Char → List Char
  | [], cs => cs
  | _ :: bound, cs =>
    match skip cs with
    | some rest => skipWithin skip bound rest
    | none => cs

/-- The text after all pieces: every piece has a character, so there are no more of them than the text has. -/
def skipMany (skip : Skipper) (cs : List Char) : List Char := skipWithin skip cs cs

/-- The text after at least one piece. -/
def skipSome (skip : Skipper) (cs : List Char) : Option (List Char) := (skip cs).map (skipMany skip)

def word? (word : String) : Skipper := fun cs => word.toList.isPrefixOf? cs

/-- The longest beginning of characters of a class, and the text behind it. -/
def span (p : Char → Bool) (cs : List Char) : List Char × List Char := (cs.takeWhile p, cs.dropWhile p)

/-! ## Digits -/

/-- The value of a digit, in bases up to 16. -/
def digitValue? (c : Char) : Option Nat :=
  if c.isDigit then some (c.toNat - '0'.toNat)
  else if 'a' ≤ c && c ≤ 'f' then some (c.toNat - 'a'.toNat + 10)
  else if 'A' ≤ c && c ≤ 'F' then some (c.toNat - 'A'.toNat + 10)
  else none

/-- The value of a digit of a base. -/
def digitOf? (base : Nat) (c : Char) : Option Nat := (digitValue? c).filter (· < base)

def isDigitOf (base : Nat) (c : Char) : Bool := (digitOf? base c).isSome

/-- The number that the digits of a text spell; other characters do not count. -/
def numberOf (base : Nat) (cs : List Char) : Nat :=
  cs.foldl (fun n c => match digitOf? base c with
    | some d => n * base + d
    | none => n) 0

/-- The character of a number, if it has one. -/
def scalar? (n : Nat) : Option Char := if n.isValidChar then some (Char.ofNat n) else none

end AdminPolicy.Text
