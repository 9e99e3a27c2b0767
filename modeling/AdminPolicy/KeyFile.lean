import AdminPolicy.Text.Blank
import AdminPolicy.Text.Utf8

/-!
# Key files

Texts of `[Section]` headers and `Key=Value` assignments. They are read one character at a time by a machine whose
modes are the places in which a character can stand. A header reaches to the next `]` and a key to the next `=` or
`:`, over line ends too; a value reaches to the end of its line; a comment begins in the first column with `#` or
`;`. Names, keys and values lose the blanks around them, and values mean what they say: no quotes, no escapes.

A section may be opened again; `get?` looks into the first block of its name, and there the last assignment counts.
-/

namespace AdminPolicy

open Text

namespace KeyFile

/-- Why a text is no key file. -/
inductive Fault where
  /-- An assignment has nothing before its separator. -/
  | missingKey
  /-- A comment does not begin in the first column. -/
  | commentInside
  /-- The text ends in a header. -/
  | unclosedHeader
  /-- The text ends in a key. -/
  | unfinishedKey
  deriving DecidableEq, Repr

def Fault.message : Fault → String
  | missingKey => "missing key"
  | commentInside => "doesn't support inline comment"
  | unclosedHeader => "expecting \"[Some(']')]\" but found EOF."
  | unfinishedKey => "expecting \"[Some('='), Some(':')]\" but found EOF."

/-- A fault and the line that it is reported for. -/
structure SyntaxError where
  fault : Fault
  line : Nat
  deriving DecidableEq, Repr

/-- What a key file is made of. -/
inductive Item where
  | header (name : List Char)
  | assignment (key value : List Char)
  deriving DecidableEq, Repr

/-- Where the next character stands. Texts being collected are kept backwards. -/
inductive Mode where
  /-- Between items. -/
  | between
  | comment
  | header (sofar : List Char)
  | key (sofar : List Char)
  | value (key sofar : List Char)
  deriving DecidableEq, Repr

/-- A collected text, forwards and without the blanks around it. -/
def collected (sofar : List Char) : List Char := trim sofar.reverse

/-- The items of a text that is met in a mode, after `line` line ends; `first` says whether the next character is
the first of its line. A fault is reported two lines below the line ends met before it. -/
def scan (mode : Mode) (line : Nat) (first : Bool) : List Char → Except SyntaxError (List Item)
  | [] =>
    match mode with
    | .between | .comment => .ok []
    | .header _ => .error ⟨.unclosedHeader, line + 2⟩
    | .key _ => .error ⟨.unfinishedKey, line + 2⟩
    | .value key sofar => .ok [.assignment (collected key) (collected sofar)]
  | c :: cs =>
    let line' := if c = '\n' then line + 1 else line
    let go (mode : Mode) := scan mode line' (c = '\n') cs
    match mode with
    | .between =>
      if isBlank c then go .between
      else if c = '#' || c = ';' then if first then go .comment else .error ⟨.commentInside, line + 2⟩
      else if c = '[' then go (.header [])
      else if c = '=' || c = ':' then .error ⟨.missingKey, line + 2⟩
      else go (.key [c])
    | .comment => go (if c = '\n' then .between else .comment)
    | .header sofar =>
      if c = ']' then (go .between).map (.header (collected sofar) :: ·) else go (.header (c :: sofar))
    | .key sofar => go (if c = '=' || c = ':' then .value sofar [] else .key (c :: sofar))
    | .value key sofar =>
      if c = '\n' || c = '\r' then (go .between).map (.assignment (collected key) (collected sofar) :: ·)
      else go (.value key (c :: sofar))

/-- A header and the assignments behind it. Those before any header stand in a block without a name. -/
structure Block where
  name? : Option (List Char)
  assignments : List (List Char × List Char)
  deriving DecidableEq, Repr

/-- The blocks of an item list, the first of them open under `name?`. -/
def blocksFrom (name? : Option (List Char)) (assignments : List (List Char × List Char)) : List Item → List Block
  | [] => [⟨name?, assignments⟩]
  | .header name :: items => ⟨name?, assignments⟩ :: blocksFrom (some name) [] items
  | .assignment key value :: items => blocksFrom name? (assignments ++ [(key, value)]) items

end KeyFile

/-- A key file, as its blocks. -/
structure KeyFile where
  blocks : List KeyFile.Block
  deriving DecidableEq, Repr

namespace KeyFile

/-- The key file that a text is, or its first fault. -/
def parse (source : String) : Except SyntaxError KeyFile :=
  (scan .between 0 true (dropMark source.toList)).map fun items => ⟨blocksFrom none [] items⟩

/-- The value of a key in the first block of a section: of several assignments the last counts. -/
def get? (f : KeyFile) (sectionName key : String) : Option String :=
  match f.blocks.find? (·.name? = some sectionName.toList) with
  | none => none
  | some b => (b.assignments.findRev? (·.1 = key.toList)).map fun a => String.ofList a.2

end KeyFile

end AdminPolicy
