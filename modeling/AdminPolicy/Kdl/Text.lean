import AdminPolicy.Kdl.Number
import AdminPolicy.Kdl.Space
import AdminPolicy.Text.Split

/-!
# Text of KDL documents

A text is a bare identifier, or quoted, or raw. Quoted text knows escapes, raw text takes every character for itself
and is closed by as many `#` as it was opened with. Both can be written over several lines between triple quotes. Then
the line of the closing quotes says how far the lines are indented: its spaces are taken off the front of every line,
except that a line of nothing but spaces is empty.
-/

namespace AdminPolicy.Kdl

open Text

/-! ## Identifiers -/

/-- The identifiers that are no text. -/
def reserved : List String := ["true", "false", "null", "inf", "nan"]

/-- Whether an identifier is spelt like the beginning of a number. -/
def resemblesNumber : List Char → Bool
  | c :: cs =>
    if c.isDigit then true
    else if isSign c then
      match cs with
      | '.' :: d :: _ => d.isDigit
      | d :: _ => d.isDigit
      | [] => false
    else if c = '.' then (cs.head?).any Char.isDigit
    else false
  | [] => false

def identifier? : Reader (List Char) := fun cs =>
  let (name, rest) := span isIdentifier cs
  if name = [] || resemblesNumber name || reserved.contains (String.ofList name) then none else some (name, rest)

/-! ## Escapes -/

/-- The character that is written behind a backslash. -/
def escaped? : Reader Char
  | 'n' :: cs => some ('\n', cs)
  | 'r' :: cs => some ('\r', cs)
  | 't' :: cs => some ('\t', cs)
  | '\\' :: cs => some ('\\', cs)
  | '"' :: cs => some ('"', cs)
  | 'b' :: cs => some ('\x08', cs)
  | 'f' :: cs => some ('\x0c', cs)
  | 's' :: cs => some (' ', cs)
  | 'u' :: brace :: cs =>
    let (digits, rest) := span (isDigitOf 16) cs
    match rest with
    | last :: rest =>
      if brace = openBrace && last = closeBrace && 1 ≤ digits.length && digits.length ≤ 6 then
        (scalar? (numberOf 16 digits)).map fun c => (c, rest)
      else none
    | [] => none
  | _ => none

/-- The text behind a backslash and the blanks and newlines that it takes away; there is at least one of them. -/
def blankEscape? : Skipper
  | '\\' :: c :: cs =>
    if isSpace c || isNewline c then some (cs.dropWhile fun c => isSpace c || isNewline c) else none
  | _ => none

/-- A character of quoted text. -/
def quotedChar? : Reader Char
  | '\\' :: cs => escaped? cs
  | c :: cs => if c = '"' || isNewline c || isDisallowed c then none else some (c, cs)
  | [] => none

/-! ## One line -/

/-- Quoted text behind its opening quote. -/
def quotedBody : Nat → Reader (List Char)
  | 0, _ => none
  | fuel + 1, cs =>
    match skipMany blankEscape? cs with
    | '"' :: rest => some ([], rest)
    | cs => do
      let (c, rest) ← quotedChar? cs
      let (text, rest) ← quotedBody fuel rest
      pure (c :: text, rest)

/-- The text behind a quote and a number of `#`. -/
def closing? (quotes : List Char) (hashes : Nat) (cs : List Char) : Option (List Char) :=
  (quotes ++ List.replicate hashes '#').isPrefixOf? cs

/-- Raw text behind its opening quote. -/
def rawBody (hashes : Nat) : Reader (List Char)
  | [] => none
  | c :: cs =>
    match closing? ['"'] hashes (c :: cs) with
    | some rest => some ([], rest)
    | none =>
      if isNewline c || isDisallowed c then none
      else (rawBody hashes cs).map fun (text, rest) => (c :: text, rest)

/-! ## Several lines -/

/-- How the lines of a text over several lines are read. -/
structure LineStyle where
  /-- What is taken away without a trace. -/
  omitted? : Skipper
  /-- A character of a line. -/
  char? : Reader Char
  /-- The text behind the closing quotes. -/
  closing? : Skipper

def quotedLines : LineStyle where
  omitted? := blankEscape?
  char? cs :=
    match cs with
    | '"' :: rest => if ['"', '"'].isPrefixOf rest then none else some ('"', rest)
    | cs => quotedChar? cs
  closing? := closing? ['"', '"', '"'] 0

def rawLines (hashes : Nat) : LineStyle where
  omitted? _ := none
  char? cs :=
    match cs with
    | c :: rest => if (closing? ['"', '"', '"'] hashes cs).isSome || isDisallowed c then none else some (c, rest)
    | [] => none
  closing? := closing? ['"', '"', '"'] hashes

namespace LineStyle

/-- A piece of a line: a character, or nothing where something was taken away. -/
def piece? (s : LineStyle) : Reader (Option Char) := fun cs =>
  match s.omitted? cs with
  | some rest => some (none, rest)
  | none => (s.char? cs).map fun (c, rest) => (some c, rest)

/-- The characters up to the end of the line, and the text of the next line. -/
def lineBody (s : LineStyle) : Nat → Reader (List Char)
  | 0, _ => none
  | fuel + 1, cs =>
    match newline? cs with
    | some rest => some ([], rest)
    | none => do
      let (piece, rest) ← s.piece? cs
      let (text, rest) ← s.lineBody fuel rest
      pure (piece.toList ++ text, rest)

/-- The indentation that the line of the closing quotes states, if that line is here. -/
def closingIndent? (s : LineStyle) (cs : List Char) : Option (List Char) :=
  (s.closing? (skipMany s.omitted? (cs.dropWhile isSpace))).map fun _ => cs.takeWhile isSpace

/-- The indentation of a text: that of the first line that holds the closing quotes. -/
def indent? (s : LineStyle) : Nat → List Char → Option (List Char)
  | 0, _ => none
  | fuel + 1, cs =>
    match s.closingIndent? cs with
    | some indent => some indent
    | none => do
      let (_, rest) ← s.lineBody (cs.length + 1) cs
      s.indent? fuel rest

/-- The text of the next line, if this one holds nothing but spaces. -/
def blankLine? (cs : List Char) : Option (List Char) := newline? (cs.dropWhile isSpace)

/-- The lines up to the closing quotes, without their indentation. -/
def body (s : LineStyle) (indent : List Char) : Nat → Reader (List (List Char))
  | 0, _ => none
  | fuel + 1, cs =>
    match (indent.isPrefixOf? cs).bind fun rest => s.closing? (skipMany s.omitted? rest) with
    | some rest => some ([], rest)
    | none => do
      let (line, rest) ←
        match blankLine? cs with
        | some rest => some ([], rest)
        | none => (indent.isPrefixOf? cs).bind fun rest => s.lineBody (rest.length + 1) rest
      let (lines, rest) ← s.body indent fuel rest
      pure (line :: lines, rest)

/-- Text over several lines, from its first line on. -/
def text? (s : LineStyle) : Reader (List Char) := fun cs => do
  let indent ← s.indent? (cs.length + 1) cs
  let (lines, rest) ← s.body indent (cs.length + 1) cs
  pure (joinWith ['\n'] lines, rest)

end LineStyle

/-! ## Any text -/

/-- The text of the first line behind triple quotes, if they open text over several lines. -/
def opensLines? (cs : List Char) : Option (List Char) := (closing? ['"', '"', '"'] 0 cs).bind newline?

/-- Quoted text. Three quotes in a row open text over several lines or nothing. -/
def quoted? : Reader (List Char) := fun cs =>
  match opensLines? cs with
  | some rest => quotedLines.text? rest
  | none =>
    match cs with
    | '"' :: '"' :: '"' :: _ => none
    | '"' :: rest => quotedBody (rest.length + 1) rest
    | _ => none

def rawLine? (hashes : Nat) : Reader (List Char)
  | '"' :: cs => rawBody hashes cs
  | _ => none

/-- Raw text behind its `#`. It is not a lone quote, which on one line would look like triple quotes. -/
def raw? (hashes : Nat) : Reader (List Char) := fun cs =>
  let read? :=
    match opensLines? cs with
    | some rest => (rawLines hashes).text? rest
    | none => rawLine? hashes cs
  read?.filter fun (text, _) => text ≠ ['"']

/-- The characters of any text. -/
def characters? : Reader (List Char) := fun cs =>
  match cs with
  | '"' :: _ => quoted? cs
  | '#' :: _ =>
    let hashes := (cs.takeWhile (· = '#')).length
    raw? hashes (cs.drop hashes)
  | _ => identifier? cs

def text? : Reader String := fun cs =>
  (characters? cs).bind fun (text, rest) => if endsToken rest then some (String.ofList text, rest) else none

end AdminPolicy.Kdl
