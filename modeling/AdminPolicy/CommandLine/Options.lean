/-!
# Options on a command line

The words behind a program's name, read from left to right. An option takes a value: the next word, or what is written
behind an equals sign, or, for a short option, right behind its letter. Words that begin with a hyphen are no values of
the word before them. An option is given once; `--help` ends the reading where it stands, and so does `--version` where
there is one. A word that is the name of a command hands the rest of the words over to that command.
-/

namespace AdminPolicy.CommandLine

/-- An option that takes a value. -/
structure OptionForm where
  /-- The name behind two hyphens. -/
  long : String
  /-- The letter behind one hyphen. -/
  short? : Option Char
  /-- Whether the option takes a value. -/
  accepts : String → Bool

/-- What can be written behind a program's or a command's name. -/
structure Grammar where
  options : List OptionForm
  hasVersion : Bool
  commands : List String

/-- The values of the options that were given, by their long names. -/
abbrev Values := List (String × String)

/-- What reading the words of a grammar comes to. -/
inductive Parsed where
  | refused
  | help
  | version
  /-- There are no more words. -/
  | finished (values : Values)
  /-- A command is named, with the words behind it. -/
  | command (values : Values) (name : String) (rest : List String)
  deriving DecidableEq, Repr

inductive Word where
  /-- Words behind it are no options. -/
  | divider
  | long (name : String) (value? : Option String)
  | short (letter : Char) (rest : List Char)
  | plain
  deriving DecidableEq, Repr

/-- The text before the first equals sign, and the text behind it, if there is one. -/
def splitEquals : List Char → List Char × Option (List Char)
  | [] => ([], none)
  | c :: cs =>
    if c = '=' then ([], some cs)
    else
      let (name, value?) := splitEquals cs
      (c :: name, value?)

def Word.of (w : String) : Word :=
  match w.toList with
  | '-' :: '-' :: [] => .divider
  | '-' :: '-' :: cs =>
    let (name, value?) := splitEquals cs
    .long (String.ofList name) (value?.map String.ofList)
  | '-' :: c :: cs => .short c cs
  | _ => .plain

/-- Whether a word can be the value of the word before it. -/
def isValue (w : String) : Bool := Word.of w = .plain

/-- The value that is written behind the letter of a short option. -/
def attachedValue? : List Char → Option String
  | [] => none
  | '=' :: cs => some (String.ofList cs)
  | cs => some (String.ofList cs)

/-- The values with one more, unless the option has one or does not take this one. -/
def OptionForm.give (o : OptionForm) (v : String) (values : Values) : Option Values :=
  if (values.lookup o.long).isSome || !o.accepts v then none else some (values ++ [(o.long, v)])

namespace Grammar

/-- What a word is in a grammar: an option, perhaps with its value, or the end of the reading. -/
inductive Meaning where
  | option (o : OptionForm) (value? : Option String)
  | ends (p : Parsed)

/-- The meaning of a word that is no command. -/
def meaning (g : Grammar) : Word → Meaning
  | .divider | .plain => .ends .refused
  | .long name value? =>
    match g.options.find? fun o => o.long = name with
    | some o => .option o value?
    | none =>
      if name = "help" && value? = none then .ends .help
      else if name = "version" && g.hasVersion && value? = none then .ends .version
      else .ends .refused
  | .short letter rest =>
    match g.options.find? fun o => o.short? = some letter with
    | some o => .option o (attachedValue? rest)
    | none =>
      if letter = 'h' then .ends .help
      else if letter = 'V' && g.hasVersion then .ends .version
      else .ends .refused

/-- What words come to, behind those that gave the options these values. -/
def read (g : Grammar) (values : Values) : List String → Parsed
  | [] => .finished values
  | w :: rest =>
    if Word.of w = .divider then if rest = [] then .finished values else .refused
    else if g.commands.contains w then .command values w rest
    else
      match g.meaning (Word.of w), rest with
      | .ends p, _ => p
      | .option o (some v), rest =>
        match o.give v values with
        | some values => g.read values rest
        | none => .refused
      | .option _ none, [] => .refused
      | .option o none, v :: rest =>
        if isValue v then
          match o.give v values with
          | some values => g.read values rest
          | none => .refused
        else .refused

end Grammar

end AdminPolicy.CommandLine
