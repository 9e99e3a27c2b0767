import AdminPolicy.Text.Reader

/-!
# Text of TOML documents

White space and comments, quoted text and keys. Basic text stands between double quotes and knows escapes, literal
text stands between single quotes and takes every character for itself; between three quotes either goes over several
lines, and up to two quotes can stand right before the closing ones.
-/

namespace AdminPolicy.Toml

open Text

/-! ## White space -/

/-- A blank inside a line. -/
def isBlank (c : Char) : Bool := c = ' ' || c = '\t'

def skipBlanks (cs : List Char) : List Char := cs.dropWhile isBlank

def newline? : Skipper
  | '\n' :: cs => some cs
  | '\r' :: '\n' :: cs => some cs
  | _ => none

/-- A character that stands for itself in comments and in any quotes. -/
def isPlain (c : Char) : Bool := c = '\t' || (0x20 ≤ c.toNat && c.toNat ≠ 0x7F)

/-- The text behind a comment, if there is one. -/
def skipComment : List Char → List Char
  | '#' :: cs => cs.dropWhile isPlain
  | cs => cs

/-- The end of a line, behind blanks and perhaps a comment. -/
def lineEnd? (cs : List Char) : Option (List Char) :=
  match skipComment (skipBlanks cs) with
  | [] => some []
  | cs => newline? cs

/-- A blank, a newline, or a comment with its newline. -/
def space? : Skipper
  | c :: cs =>
    if isBlank c then some cs
    else if c = '#' then newline? (skipComment (c :: cs))
    else newline? (c :: cs)
  | [] => none

/-- The text behind blanks, newlines and comments. -/
def skipSpace (cs : List Char) : List Char := skipMany space? cs

/-! ## Quoted text -/

/-- The character of a given number of hexadecimal digits. -/
def scalarOf? (digits : Nat) : Reader Char := fun cs =>
  let spelt := cs.take digits
  if spelt.length = digits && spelt.all (isDigitOf 16) then
    (scalar? (numberOf 16 spelt)).map fun c => (c, cs.drop digits)
  else none

/-- The character that is written behind a backslash. -/
def escaped? : Reader Char
  | 'b' :: cs => some ('\x08', cs)
  | 't' :: cs => some ('\t', cs)
  | 'n' :: cs => some ('\n', cs)
  | 'f' :: cs => some ('\x0c', cs)
  | 'r' :: cs => some ('\r', cs)
  | '"' :: cs => some ('"', cs)
  | '\\' :: cs => some ('\\', cs)
  | 'u' :: cs => scalarOf? 4 cs
  | 'U' :: cs => scalarOf? 8 cs
  | _ => none

/-- Basic text behind its opening quote. -/
def basicBody : Nat → Reader (List Char)
  | 0, _ => none
  | _, '"' :: cs => some ([], cs)
  | fuel + 1, '\\' :: cs => do
    let (c, rest) ← escaped? cs
    let (text, rest) ← basicBody fuel rest
    pure (c :: text, rest)
  | fuel + 1, c :: cs => if isPlain c then (basicBody fuel cs).map fun (text, rest) => (c :: text, rest) else none
  | _, [] => none

/-- Literal text behind its opening quote. -/
def literalBody : Reader (List Char)
  | '\'' :: cs => some ([], cs)
  | c :: cs => if isPlain c then (literalBody cs).map fun (text, rest) => (c :: text, rest) else none
  | [] => none

/-- The quotes that a text over several lines ends with, behind the closing three: no more than two. -/
def closingQuotes (quote : Char) (cs : List Char) : List Char × List Char :=
  let quotes := (cs.takeWhile (· = quote)).take 2
  (quotes, cs.drop quotes.length)

/-- The text behind a backslash that ends its line, with the blanks and newlines before the next character. -/
def lineJoin? : Skipper
  | '\\' :: cs => (newline? (skipBlanks cs)).map (skipMany fun cs =>
      match cs with
      | c :: rest => if isBlank c then some rest else newline? cs
      | [] => none)
  | _ => none

/-- Text over several lines behind its opening quotes; `basic` text has escapes. -/
def linesBody (quote : Char) (basic : Bool) : Nat → Reader (List Char)
  | 0, _ => none
  | _, [] => none
  | fuel + 1, c :: cs =>
    if [quote, quote, quote].isPrefixOf (c :: cs) then some (closingQuotes quote (cs.drop 2))
    else
      match newline? (c :: cs) with
      | some rest => (linesBody quote basic fuel rest).map fun (text, rest) => ('\n' :: text, rest)
      | none =>
        if basic && c = '\\' then
          match lineJoin? (c :: cs) with
          | some rest => linesBody quote basic fuel rest
          | none => do
            let (e, rest) ← escaped? cs
            let (text, rest) ← linesBody quote basic fuel rest
            pure (e :: text, rest)
        else if isPlain c then (linesBody quote basic fuel cs).map fun (text, rest) => (c :: text, rest)
        else none

/-- Text over several lines behind its opening quotes. A newline right behind them does not count. -/
def lines? (quote : Char) (basic : Bool) : Reader (List Char) := fun cs =>
  let cs := (newline? cs).getD cs
  linesBody quote basic (cs.length + 1) cs

def quoted? : Reader (List Char)
  | '"' :: cs => basicBody (cs.length + 1) cs
  | '\'' :: cs => literalBody cs
  | _ => none

def text? : Reader String := fun cs =>
  let body := match cs with
    | '"' :: '"' :: '"' :: rest => lines? '"' true rest
    | '\'' :: '\'' :: '\'' :: rest => lines? '\'' false rest
    | _ => quoted? cs
  body.map fun (text, rest) => (String.ofList text, rest)

/-! ## Keys -/

/-- A character of a bare key. -/
def isBare (c : Char) : Bool := c.isAlphanum || c = '-' || c = '_'

def name? : Reader String := fun cs =>
  match quoted? cs with
  | some (name, rest) => some (String.ofList name, rest)
  | none =>
    let (name, rest) := span isBare cs
    if name = [] then none else some (String.ofList name, rest)

/-- The names of a key, between dots. -/
def names? : Nat → Reader (List String)
  | 0, _ => none
  | fuel + 1, cs => do
    let (name, rest) ← name? (skipBlanks cs)
    match skipBlanks rest with
    | '.' :: rest =>
      let (names, rest) ← names? fuel rest
      pure (name :: names, rest)
    | rest => pure ([name], rest)

/-- How deep keys and values may be nested. -/
def maxDepth : Nat := 80

/-- A key, with the blanks around it. -/
def key? : Reader (List String) := fun cs => names? (maxDepth - 1) cs

end AdminPolicy.Toml
