import AdminPolicy.Json.Number

/-!
# Reading JSON documents

`parse` reads a text as a configuration value or refuses it as a whole. Of a name that is written twice in an object
the last value counts.
-/

namespace AdminPolicy.Json

open Text Config

def skipSpace (cs : List Char) : List Char := cs.dropWhile fun c => c = ' ' || c = '\t' || c = '\n' || c = '\r'

/-! ## Text -/

/-- A UTF-16 unit in four hexadecimal digits. -/
def unit? : Reader Nat := fun cs =>
  let spelt := cs.take 4
  if spelt.length = 4 && spelt.all (isDigitOf 16) then some (numberOf 16 spelt, cs.drop 4) else none

/-- Whether a unit is the first of a pair. -/
def isLeading (u : Nat) : Bool := 0xD800 ≤ u && u < 0xDC00

def isTrailing (u : Nat) : Bool := 0xDC00 ≤ u && u < 0xE000

/-- The character of a pair of units. -/
def pairChar? (u v : Nat) : Option Char := scalar? (0x10000 + (u - 0xD800) * 0x400 + (v - 0xDC00))

/-- The character of one unit or two. -/
def unitsChar? : Reader Char := fun cs => do
  let (u, rest) ← unit? cs
  if isLeading u then
    match rest with
    | '\\' :: 'u' :: rest =>
      let (v, rest) ← unit? rest
      if isTrailing v then (pairChar? u v).map (·, rest) else none
    | _ => none
  else (scalar? u).map (·, rest)

/-- The character that is written behind a backslash. -/
def escaped? : Reader Char
  | '"' :: cs => some ('"', cs)
  | '\\' :: cs => some ('\\', cs)
  | '/' :: cs => some ('/', cs)
  | 'b' :: cs => some ('\x08', cs)
  | 'f' :: cs => some ('\x0c', cs)
  | 'n' :: cs => some ('\n', cs)
  | 'r' :: cs => some ('\r', cs)
  | 't' :: cs => some ('\t', cs)
  | 'u' :: cs => unitsChar? cs
  | _ => none

/-- Text behind its opening quote. -/
def textBody : Nat → Reader (List Char)
  | 0, _ => none
  | _, [] => none
  | fuel + 1, c :: cs =>
    if c = '"' then some ([], cs)
    else if c = '\\' then do
      let (e, rest) ← escaped? cs
      let (text, rest) ← textBody fuel rest
      pure (e :: text, rest)
    else if c.toNat < 0x20 then none
    else (textBody fuel cs).map fun (text, rest) => (c :: text, rest)

def text? : Reader String
  | '"' :: cs => (textBody (cs.length + 1) cs).map fun (text, rest) => (String.ofList text, rest)
  | _ => none

/-! ## Values -/

/-- The values that are written as a word. -/
def words : List (String × Scalar) := [("true", .boolean true), ("false", .boolean false), ("null", .null)]

/-- A value without parts. -/
def scalarValue? : Reader Scalar := fun cs =>
  match cs with
  | '"' :: _ => (text? cs).map fun (s, rest) => (.text s, rest)
  | _ => (words.findSome? fun (word, v) => (word? word cs).map fun rest => (v, rest)).or (number? cs)

section

variable (value? : Reader Value)

/-- The elements of an array, of which there is at least one. -/
def elements? : Nat → Reader (List Value)
  | 0, _ => none
  | fuel + 1, cs => do
    let (v, rest) ← value? (skipSpace cs)
    match skipSpace rest with
    | ']' :: rest => pure ([v], rest)
    | ',' :: rest => do
      let (vs, rest) ← elements? fuel rest
      pure (v :: vs, rest)
    | _ => none

/-- The members of an object, of which there is at least one, put into the fields that are there. -/
def members? : Nat → Fields → Reader Fields
  | 0, _, _ => none
  | fuel + 1, fields, cs => do
    let (name, rest) ← text? (skipSpace cs)
    match skipSpace rest with
    | ':' :: rest => do
      let (v, rest) ← value? (skipSpace rest)
      let fields := Fields.put name v fields
      match skipSpace rest with
      | ',' :: rest => members? fuel fields rest
      | c :: rest => if c = '\x7d' then pure (fields, rest) else none
      | [] => none
    | _ => none

end

/-- How deep arrays and objects may be nested. -/
def maxDepth : Nat := 128

/-- A value; arrays and objects are nested less than `depth` deep. -/
def value? : Nat → Reader Value
  | 0, _ => none
  | depth + 1, cs =>
    match cs with
    | '[' :: rest =>
      if depth = 0 then none
      else
        match skipSpace rest with
        | ']' :: rest => some (.array none [], rest)
        | rest => (elements? (value? depth) (rest.length + 1) rest).map fun (vs, rest) => (.array none vs, rest)
    | '\x7b' :: rest =>
      if depth = 0 then none
      else
        match skipSpace rest with
        | '\x7d' :: rest => some (.table none [], rest)
        | rest => (members? (value? depth) (rest.length + 1) [] rest).map fun (fs, rest) => (.table none fs, rest)
    | _ => (scalarValue? cs).map fun (s, rest) => (.scalar none s, rest)

def parse (source : String) : Option Value :=
  match value? maxDepth (skipSpace source.toList) with
  | some (v, rest) => if skipSpace rest = [] then some v else none
  | none => none

end AdminPolicy.Json
