import AdminPolicy.Compilation
import AdminPolicy.Proofs.IdentityList
import Mathlib.Data.List.Induction

/-!
# What entries come to

A compiled policy, read off its entries without going through them one by one. Each entry contributes one block or
none, and the blocks stand in the order of the entries (`blocks_compile`). The names that an authorization document
grants are those of the last entry that grants anyone (`authorization_compile`).
-/

namespace AdminPolicy

/-- Those whom an entry grants administrator rights. -/
def Entry.grants (e : Entry) : List Identity :=
  match e.key with
  | .clientAdmins => if e.disabled then [] else IdentityList.identities e.value
  | _ => []

/-- The block that an entry contributes. -/
def Entry.block? (e : Entry) : Option RuleBlock :=
  match e.key with
  | .allowLocalAdmins =>
    if e.disabled then some ["%admin\tALL=(ALL) !ALL", "%sudo\tALL=(ALL:ALL) !ALL"] else none
  | .clientAdmins =>
    if e.grants = [] then none else some (e.grants.map fun i => "\"" ++ i.token ++ "\"\tALL=(ALL:ALL) ALL")
  | .unknown _ => none

/-- Those whom the last entry that grants anyone grants rights; nobody, if no entry grants anyone. -/
def lastGrants (entries : List Entry) : List Identity :=
  ((entries.map Entry.grants).filter (· ≠ [])).getLast?.getD []

theorem Entry.isAccountName_of_mem_grants {e : Entry} {i : Identity} (h : i ∈ e.grants) :
    IdentityList.IsAccountName i.name := by
  unfold grants at h
  split at h
  · split at h
    · exact absurd h List.not_mem_nil
    · exact IdentityList.isAccountName_of_mem h
  · exact absurd h List.not_mem_nil

/-! ## One entry -/

namespace Draft

/-- An entry adds its block, if it has one. -/
theorem blocks_add (d : Draft) (e : Entry) : (d.add e).blocks = d.blocks ++ e.block?.toList := by
  obtain ⟨key, value, disabled⟩ := e
  cases key with
  | allowLocalAdmins => cases disabled <;> simp [add, Entry.block?, denyBlock]
  | clientAdmins =>
    cases disabled with
    | true => simp [add, Entry.block?, Entry.grants]
    | false => cases h : IdentityList.identities value <;> simp [add, Entry.block?, Entry.grants, grantLine, h]
  | unknown name => simp [add, Entry.block?]

/-- An entry that grants anyone replaces the granted names. -/
theorem granted?_add (d : Draft) (e : Entry) :
    (d.add e).granted? = if e.grants = [] then d.granted? else some (e.grants.map Identity.authorizationName) := by
  obtain ⟨key, value, disabled⟩ := e
  cases key with
  | allowLocalAdmins => cases disabled <;> simp [add, Entry.grants]
  | clientAdmins =>
    cases disabled with
    | true => simp [add, Entry.grants]
    | false => cases h : IdentityList.identities value <;> simp [add, Entry.grants, h]
  | unknown name => simp [add, Entry.grants]

end Draft

theorem lastGrants_concat (entries : List Entry) (e : Entry) :
    lastGrants (entries ++ [e]) = if e.grants = [] then lastGrants entries else e.grants := by
  by_cases h : e.grants = [] <;> simp [lastGrants, h]

theorem isAccountName_of_mem_lastGrants {entries : List Entry} {i : Identity} (h : i ∈ lastGrants entries) :
    IdentityList.IsAccountName i.name := by
  induction entries using List.reverseRecOn with
  | nil => exact absurd h List.not_mem_nil
  | append_singleton entries e ih =>
    rw [lastGrants_concat] at h
    split at h
    · exact ih h
    · exact e.isAccountName_of_mem_grants h

/-! ## All entries -/

namespace Draft

theorem blocks_foldl (entries : List Entry) : (entries.foldl add {}).blocks = entries.filterMap Entry.block? := by
  induction entries using List.reverseRecOn with
  | nil => rfl
  | append_singleton entries e ih =>
    rw [List.foldl_append, List.foldl_cons, List.foldl_nil, blocks_add, ih, List.filterMap_append]
    cases h : e.block? <;> simp [h]

theorem granted?_foldl (entries : List Entry) : (entries.foldl add {}).granted? =
    if lastGrants entries = [] then none else some ((lastGrants entries).map Identity.authorizationName) := by
  induction entries using List.reverseRecOn with
  | nil => rfl
  | append_singleton entries e ih =>
    rw [List.foldl_append, List.foldl_cons, List.foldl_nil, granted?_add, ih, lastGrants_concat]
    by_cases h : e.grants = [] <;> simp [h]

end Draft

/-- **The blocks of a policy** are those of its entries. -/
theorem blocks_compile (entries : List Entry) (system : String) :
    (compile entries system).blocks = entries.filterMap Entry.block? :=
  Draft.blocks_foldl entries

/-- **The authorization of a policy** grants the names of the last entry that grants anyone. They follow what others
have set, or stand alone; without any of them there may be no document. -/
theorem authorization_compile (entries : List Entry) (system : String) :
    let granted := (lastGrants entries).map Identity.authorizationName
    (compile entries system).authorization = .absent ∧ granted = [] ∨
      (compile entries system).authorization = .merged system granted ∧ granted ≠ [] ∨
      (compile entries system).authorization = .explicitOnly granted := by
  have hg := Draft.granted?_foldl entries
  unfold compile Draft.authorization
  dsimp only
  generalize entries.foldl Draft.add {} = d at hg ⊢
  obtain ⟨localAdmins, blocks, granted?⟩ := d
  dsimp only at hg ⊢
  by_cases h : lastGrants entries = []
  · rw [if_pos h] at hg
    subst hg
    cases localAdmins <;> simp [h]
  · rw [if_neg h] at hg
    subst hg
    cases localAdmins <;> simp [h]

end AdminPolicy
