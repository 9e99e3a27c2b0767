/-!
# Characters of KDL documents

The classes that the grammar is built from. Spaces and newlines are different classes, and an identifier holds
neither. A carriage return and the line feed behind it are one newline.
-/

namespace AdminPolicy.Kdl

/-- A blank inside a line. -/
def isSpace (c : Char) : Bool :=
  let n := c.toNat
  n == 0x09 || n == 0x20 || n == 0xA0 || n == 0x1680 || (0x2000 ≤ n && n ≤ 0x200A) || n == 0x202F || n == 0x205F ||
    n == 0x3000

/-- A character that ends a line. -/
def isNewline (c : Char) : Bool :=
  let n := c.toNat
  (0x0A ≤ n && n ≤ 0x0D) || n == 0x85 || n == 0x2028 || n == 0x2029

/-- What follows a newline at the front of a text. -/
def newline? : List Char → Option (List Char)
  | '\r' :: '\n' :: cs => some cs
  | c :: cs => if isNewline c then some cs else none
  | [] => none

/-- A character that stands in no document but in comments: a control character, a mark of direction, or a byte order
mark. -/
def isDisallowed (c : Char) : Bool :=
  let n := c.toNat
  n ≤ 0x08 || (0x0E ≤ n && n ≤ 0x1F) || n == 0x200E || n == 0x200F || (0x202A ≤ n && n ≤ 0x202E) ||
    (0x2066 ≤ n && n ≤ 0x2069) || n == 0xFEFF

/-- The characters that part the tokens of a document. -/
def punctuation : List Char := ['\\', '/', '(', ')', '\x7b', '\x7d', '[', ']', ';', '"', '#', '=']

/-- A character of an identifier. -/
def isIdentifier (c : Char) : Bool :=
  !punctuation.contains c && !isSpace c && !isNewline c && !isDisallowed c

/-- Whether a text or a number ends here: nothing that would be read on its own stands right behind it, and no mark that
comments out what follows. -/
def endsToken : List Char → Bool
  | [] => true
  | '/' :: '-' :: _ => false
  | c :: _ => !isIdentifier c && c ≠ '"' && c ≠ '#' && c ≠ '('

def isSign (c : Char) : Bool := c = '+' || c = '-'

def openBrace : Char := '\x7b'

def closeBrace : Char := '\x7d'

end AdminPolicy.Kdl
