/-!
# Identities

A user or a group of the host. An identity has two written forms: its token in sudoers, where `%` marks a group, and
its name in an authorization document. A token is read back as the identity it was written for
(`ofToken?_token`).
-/

namespace AdminPolicy

/-- A user or a group. -/
structure Identity where
  name : String
  isGroup : Bool
  deriving DecidableEq, Repr

namespace Identity

/-- The identity that a token stands for; a token without a name stands for none. -/
def ofToken? (token : String) : Option Identity :=
  match token.toList with
  | [] => none
  | '%' :: rest => if rest = [] then none else some ⟨String.ofList rest, true⟩
  | _ => some ⟨token, false⟩

/-- The token of an identity, in which `%` marks a group. -/
def token (i : Identity) : String := if i.isGroup then "%" ++ i.name else i.name

/-- The name of an identity in an authorization document. -/
def authorizationName (i : Identity) : String :=
  if i.isGroup then "unix-group:" ++ i.name else "unix-user:" ++ i.name

/-- A token is read back, unless the name is empty or a user's name begins with the group mark. -/
theorem ofToken?_token {i : Identity} (hn : i.name.toList ≠ [])
    (hu : i.isGroup = false → i.name.toList.head? ≠ some '%') : ofToken? i.token = some i := by
  obtain ⟨name, isGroup⟩ := i
  cases isGroup with
  | true => simpa [ofToken?, token] using hn
  | false =>
    unfold ofToken? token
    simp only [Bool.false_eq_true, ↓reduceIte]
    split
    · rename_i h; exact absurd h hn
    · rename_i h; exact absurd (by simp [h]) (hu rfl)
    · rfl

end Identity

end AdminPolicy
