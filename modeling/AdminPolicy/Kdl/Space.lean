import AdminPolicy.Kdl.Char
import AdminPolicy.Text.Reader

/-!
# White space of KDL documents

Spaces, comments and line continuations, each taken off the front of a text piece by piece. Block comments nest.
-/

namespace AdminPolicy.Kdl

open Text

/-- The text after a block comment that is open `depth + 1` times. -/
def afterBlockComment (depth : Nat) : List Char → Option (List Char)
  | '*' :: '/' :: cs =>
    match depth with
    | 0 => some cs
    | depth + 1 => afterBlockComment depth cs
  | '/' :: '*' :: cs => afterBlockComment (depth + 1) cs
  | _ :: cs => afterBlockComment depth cs
  | [] => none

/-- The text after the line that it begins in. -/
def afterLine : List Char → List Char
  | [] => []
  | c :: cs =>
    match newline? (c :: cs) with
    | some rest => rest
    | none => afterLine cs

/-- A space or a block comment. -/
def blank? : Skipper
  | '/' :: '*' :: cs => afterBlockComment 0 cs
  | c :: cs => if isSpace c then some cs else none
  | [] => none

def lineComment? : Skipper
  | '/' :: '/' :: cs => some (afterLine cs)
  | _ => none

/-- The end of a line, perhaps with a comment before it, or the end of the text. -/
def lineEnd? (cs : List Char) : Option (List Char) :=
  if cs = [] then some [] else (newline? cs).or (lineComment? cs)

/-- A backslash that continues a node on the next line. -/
def continuation? : Skipper
  | '\\' :: cs => lineEnd? (skipMany blank? cs)
  | _ => none

/-- White space inside a node. -/
def nodeSpace? (cs : List Char) : Option (List Char) := (blank? cs).or (continuation? cs)

/-- White space between nodes. -/
def lineSpace? (cs : List Char) : Option (List Char) := (nodeSpace? cs).or ((newline? cs).or (lineComment? cs))

end AdminPolicy.Kdl
