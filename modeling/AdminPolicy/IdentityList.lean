import AdminPolicy.Event
import AdminPolicy.Identity
import AdminPolicy.Text.Blank
import AdminPolicy.Text.Split

/-!
# Identity lists

Free text that names identities, one per line, separated by commas, or both. Each token is read on its own
(`readToken`): blanks and characters that an account name cannot hold are left out, `domain\user` becomes
`user@domain`, and `%` in front marks a group. What became of a token is a `Reading`, from which both the identities
and the events of a list are taken, in the order of the tokens.
-/

namespace AdminPolicy.IdentityList

open Text

/-- The characters that no account name holds. -/
def forbidden : List Char := ['/', '[', ']', ':', '|', '<', '>', '=', ';', '?', '*', '%', '"']

def isAllowed (c : Char) : Bool := !forbidden.contains c && !isBlank c

/-- The parts of a text before and after its first `sep`. -/
def splitFirst (sep : Char) : List Char → Option (List Char × List Char)
  | [] => none
  | c :: cs => if c = sep then some ([], cs) else (splitFirst sep cs).map fun (a, b) => (c :: a, b)

/-- The account name of a text of allowed characters: `domain\user` is the user of that domain. A domain without a
user, and the empty text, name nobody. -/
def accountName? (text : List Char) : Option (List Char) :=
  match splitFirst '\\' text with
  | none => if text = [] then none else some text
  | some (domain, rest) =>
    let user := rest.filter (· ≠ '\\')
    if user = [] then none
    else if domain = [] then some user
    else some (user ++ '@' :: domain)

/-- The group mark taken off the front of a token, and whether it was there. -/
def takeGroupMark : List Char → Bool × List Char
  | '%' :: rest => (true, rest)
  | cs => (false, cs)

/-- The identity that a token names. -/
def identity? (token : List Char) : Option Identity :=
  let (isGroup, body) := takeGroupMark (trim token)
  (accountName? (body.filter isAllowed)).map fun name => ⟨String.ofList name, isGroup⟩

/-- What became of a token. -/
inductive Reading where
  /-- The token holds nothing but blanks. -/
  | blank
  /-- The token is the written form of its identity. -/
  | kept (identity : Identity)
  /-- The token names an identity with another written form. -/
  | rewritten (token : String) (identity : Identity)
  /-- The token names nobody. -/
  | dropped (token : String)
  deriving DecidableEq, Repr

def Reading.identity? : Reading → Option Identity
  | .kept i | .rewritten _ i => some i
  | _ => none

def Reading.event? : Reading → Option Event
  | .rewritten token i => some (.changedIdentity token i.token)
  | .dropped token => some (.droppedIdentity token)
  | _ => none

def readToken (token : List Char) : Reading :=
  match identity? token with
  | some i => if i.token.toList = token then .kept i else .rewritten (String.ofList token) i
  | none => if trim token = [] then .blank else .dropped (String.ofList token)

/-- The tokens of a list: its lines, cut at commas. -/
def tokens (raw : List Char) : List (List Char) := splitOn ',' (joinWith [','] (lines raw))

def readings (raw : String) : List Reading := (tokens raw.toList).map readToken

/-- The identities that a list names, in order, with repetitions. -/
def identities (raw : String) : List Identity := (readings raw).filterMap Reading.identity?

def events (raw : String) : List Event := (readings raw).filterMap Reading.event?

end AdminPolicy.IdentityList
