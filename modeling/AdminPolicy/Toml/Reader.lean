import AdminPolicy.Toml.Datetime
import AdminPolicy.Toml.Number
import AdminPolicy.Toml.Table
import AdminPolicy.Toml.Text
import AdminPolicy.Text.Utf8

/-!
# Reading TOML documents

`parse` reads a text as the configuration value that its table comes to, or refuses it as a whole.
-/

namespace AdminPolicy.Toml

open Text Config

/-! ## Values -/

def number? : Reader Scalar := fun cs =>
  match real? cs with
  | some (x, rest) => some (.real x, rest)
  | none => (integer? cs).map fun (i, rest) => (.integer i, rest)

def scalar? : Reader Scalar := fun cs =>
  match cs with
  | '"' :: _ | '\'' :: _ => (text? cs).map fun (s, rest) => (.text s, rest)
  | _ =>
    match word? "true" cs, word? "false" cs with
    | some rest, _ => some (.boolean true, rest)
    | _, some rest => some (.boolean false, rest)
    | none, none => number? cs

def leaf? : Reader Value := fun cs =>
  if beginsDate cs || beginsTime cs then (datetime? cs).map fun (d, rest) => (.datetime d, rest)
  else (scalar? cs).map fun (s, rest) => (.scalar s, rest)

section

variable (value? : Reader Value)

/-- The elements of an array behind its bracket. A comma may follow the last one. -/
def elements? : Nat → Reader (List Value)
  | 0, _ => none
  | fuel + 1, cs =>
    match skipSpace cs with
    | ']' :: rest => some ([], rest)
    | cs => do
      let (v, rest) ← value? cs
      match skipSpace rest with
      | ']' :: rest => pure ([v], rest)
      | ',' :: rest => do
        let (vs, rest) ← elements? fuel rest
        pure (v :: vs, rest)
      | _ => none

/-- An assignment: the path to a table, the name in it, and the value. -/
def assignment? : Reader (List String × String × Value) := fun cs => do
  let (names, rest) ← key? cs
  match names.getLast?, rest with
  | some name, '=' :: rest =>
    let (v, rest) ← value? (skipBlanks rest)
    pure ((names.dropLast, name, v), rest)
  | _, _ => none

/-- The assignments of an inline table behind its first one's comma, or its brace. -/
def assignments? : Nat → Reader (List (List String × String × Value))
  | 0, _ => none
  | fuel + 1, cs => do
    let (a, rest) ← assignment? value? cs
    match skipBlanks rest with
    | ',' :: rest => do
      let (as, rest) ← assignments? fuel rest
      pure (a :: as, rest)
    | c :: rest => if c = '\x7d' then some ([a], rest) else none
    | [] => none

/-- An inline table behind its brace. No comma follows the last assignment. -/
def inlineTable? : Reader Value := fun cs =>
  let table (as : List (List String × String × Value)) (rest : List Char) : Option (Value × List Char) :=
    (buildInline as (.table .header [])).map fun n => (n.toValue, rest)
  match skipBlanks cs with
  | c :: rest =>
    if c = '\x7d' then table [] rest
    else (assignments? value? (cs.length + 1) (c :: rest)).bind fun (as, rest) => table as rest
  | [] => none

end

/-- A value; arrays and inline tables are nested less than `depth` deep. -/
def value? : Nat → Reader Value
  | 0, _ => none
  | depth + 1, cs =>
    match cs with
    | '[' :: rest =>
      if depth = 0 then none
      else (elements? (value? depth) (rest.length + 1) rest).map fun (vs, rest) => (.array vs, rest)
    | '\x7b' :: rest => if depth = 0 then none else inlineTable? (value? depth) rest
    | _ => leaf? cs

/-! ## Documents -/

/-- A statement, without the end of its line. -/
def statement? : Reader Statement := fun cs =>
  match cs with
  | '[' :: '[' :: rest => do
    let (path, rest) ← key? rest
    match rest with
    | ']' :: ']' :: rest => pure (.openElement path, rest)
    | _ => none
  | '[' :: rest => do
    let (path, rest) ← key? rest
    match rest with
    | ']' :: rest => pure (.openTable path, rest)
    | _ => none
  | _ => (assignment? (value? maxDepth) cs).map fun ((path, name, v), rest) => (.assign path name v, rest)

/-- The statements of a document, each on a line of its own. -/
def statements? : Nat → List Char → Option (List Statement)
  | 0, _ => none
  | fuel + 1, cs =>
    match skipBlanks cs with
    | [] => some []
    | cs =>
      match lineEnd? cs with
      | some rest => statements? fuel rest
      | none => do
        let (s, rest) ← statement? cs
        let ss ← statements? fuel (← lineEnd? rest)
        pure (s :: ss)

def parse (source : String) : Option Config.Value := do
  let cs := dropMark source.toList
  let statements ← statements? (cs.length + 1) cs
  (← build statements).configuration?

end AdminPolicy.Toml
