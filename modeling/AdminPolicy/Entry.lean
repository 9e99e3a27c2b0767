/-!
# Policy entries

One directive of an administrator policy: a key, a raw value and whether the directive is disabled. Two keys mean
something; any other is kept as it was written.
-/

namespace AdminPolicy

/-- What a directive is about. -/
inductive EntryKey where
  /-- Whether the host's own administrators keep their rights. -/
  | allowLocalAdmins
  /-- Who is granted administrator rights. -/
  | clientAdmins
  /-- A key that means nothing here. -/
  | unknown (name : String)
  deriving DecidableEq, Repr

namespace EntryKey

def ofName (name : String) : EntryKey :=
  if name = "allow-local-admins" then .allowLocalAdmins
  else if name = "client-admins" then .clientAdmins
  else .unknown name

def name : EntryKey → String
  | .allowLocalAdmins => "allow-local-admins"
  | .clientAdmins => "client-admins"
  | .unknown name => name

end EntryKey

/-- One directive of a policy. -/
structure Entry where
  key : EntryKey
  /-- The raw value: for granted administrators, an identity list. -/
  value : String
  disabled : Bool
  deriving DecidableEq, Repr

end AdminPolicy
