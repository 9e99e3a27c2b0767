import AdminPolicy.IdentityList
import AdminPolicy.Proofs.KeyFile

/-!
# Names in identity lists

An identity of a list has a name, and the name holds no blank: blanks are filtered out of every token, and what is
rearranged afterwards adds an `@` alone (`not_isBlank_of_mem_name`). Nor does it hold what separates names from each
other or a domain from its user, nor any other character that means something to a reader of the generated files
(`isAccountName_of_mem`).
-/

namespace AdminPolicy.IdentityList

open Text

theorem not_isBlank_of_isAllowed {c : Char} (h : isAllowed c = true) : isBlank c = false := by
  simp only [isAllowed, Bool.and_eq_true, Bool.not_eq_true'] at h
  exact h.2

theorem mem_of_splitFirst {sep : Char} {s a b : List Char} (h : splitFirst sep s = some (a, b)) :
    ∀ c, c ∈ a ∨ c ∈ b → c ∈ s := by
  induction s generalizing a with
  | nil => cases h
  | cons d s ih =>
    unfold splitFirst at h
    split at h
    · cases Option.some.inj h
      intro c hc
      exact List.mem_cons_of_mem _ (hc.resolve_left List.not_mem_nil)
    · obtain ⟨⟨a', b'⟩, hs, he⟩ := Option.map_eq_some_iff.mp h
      cases he
      intro c hc
      rcases hc with hc | hc
      · rcases List.mem_cons.mp hc with rfl | hc
        · exact List.mem_cons_self
        · exact List.mem_cons_of_mem _ (ih hs c (Or.inl hc))
      · exact List.mem_cons_of_mem _ (ih hs c (Or.inr hc))

/-- An account name is not empty, and its characters are those of the text, but for an `@`. -/
theorem of_accountName? {text name : List Char} (h : accountName? text = some name) :
    name ≠ [] ∧ ∀ c ∈ name, c ∈ text ∨ c = '@' := by
  unfold accountName? at h
  split at h
  · split at h
    · cases h
    · rename_i hne
      cases Option.some.inj h
      exact ⟨hne, fun _ hc => Or.inl hc⟩
  · rename_i domain rest hsplit
    have hmem := mem_of_splitFirst hsplit
    have huser : ∀ c ∈ rest.filter (· ≠ '\\'), c ∈ text := fun c hc =>
      hmem c (Or.inr (List.mem_filter.mp hc).1)
    simp only at h
    split at h
    · cases h
    · rename_i hne
      split at h
      · cases Option.some.inj h
        exact ⟨hne, fun c hc => Or.inl (huser c hc)⟩
      · cases Option.some.inj h
        refine ⟨by simp, fun c hc => ?_⟩
        rcases List.mem_append.mp hc with hc | hc
        · exact Or.inl (huser c hc)
        · exact (List.mem_cons.mp hc).elim Or.inr fun hc => Or.inl (hmem c (Or.inl hc))

theorem of_identity? {token : List Char} {i : Identity} (h : identity? token = some i) :
    i.name.toList ≠ [] ∧ ∀ c ∈ i.name.toList, isAllowed c = true ∨ c = '@' := by
  unfold identity? at h
  rcases ht : takeGroupMark (trim token) with ⟨isGroup, body⟩
  rw [ht] at h
  obtain ⟨name, hname, rfl⟩ := Option.map_eq_some_iff.mp h
  obtain ⟨hne, hmem⟩ := of_accountName? hname
  rw [String.toList_ofList]
  exact ⟨hne, fun c hc => (hmem c hc).imp_left fun hc => (List.mem_filter.mp hc).2⟩

/-- What becomes of a token does not change whom it names. -/
theorem identity?_readToken (token : List Char) : (readToken token).identity? = identity? token := by
  unfold readToken
  cases identity? token with
  | some i => dsimp only; split <;> rfl
  | none => dsimp only; split <;> rfl

theorem identities_eq_filterMap (raw : String) : identities raw = (tokens raw.toList).filterMap identity? := by
  rw [identities, readings, List.filterMap_map]
  exact congrArg (List.filterMap · _) (funext identity?_readToken)

/-- The identities of a list are those that its tokens name. -/
theorem mem_identities {raw : String} {i : Identity} :
    i ∈ identities raw ↔ ∃ token ∈ tokens raw.toList, identity? token = some i := by
  rw [identities_eq_filterMap, List.mem_filterMap]

/-- **No name of a list holds a blank.** -/
theorem not_isBlank_of_mem_name {raw : String} {i : Identity} (h : i ∈ identities raw) :
    ∀ c ∈ i.name.toList, isBlank c = false := by
  obtain ⟨token, _, hi⟩ := mem_identities.mp h
  intro c hc
  rcases (of_identity? hi).2 c hc with hc | rfl
  · exact not_isBlank_of_isAllowed hc
  · decide

/-! ## Separators -/

theorem not_mem_of_splitFirst {sep : Char} {s a b : List Char} (h : splitFirst sep s = some (a, b)) : sep ∉ a := by
  induction s generalizing a with
  | nil => cases h
  | cons d s ih =>
    unfold splitFirst at h
    split at h
    · cases Option.some.inj h
      exact List.not_mem_nil
    · rename_i hd
      obtain ⟨⟨a', b'⟩, hs, he⟩ := Option.map_eq_some_iff.mp h
      cases he
      exact List.not_mem_cons_of_ne_of_not_mem (Ne.symm hd) (ih hs)

theorem not_mem_of_splitFirst_eq_none {sep : Char} {s : List Char} (h : splitFirst sep s = none) : sep ∉ s := by
  induction s with
  | nil => exact List.not_mem_nil
  | cons d s ih =>
    unfold splitFirst at h
    split at h
    · cases h
    · rename_i hd
      exact List.not_mem_cons_of_ne_of_not_mem (Ne.symm hd) (ih (Option.map_eq_none_iff.mp h))

/-- An account name holds no backslash: the first one separates a domain, and the others are left out. -/
theorem backslash_not_mem_accountName {text name : List Char} (h : accountName? text = some name) : '\\' ∉ name := by
  unfold accountName? at h
  split at h
  · rename_i hnone
    split at h
    · cases h
    · cases Option.some.inj h
      exact not_mem_of_splitFirst_eq_none hnone
  · rename_i domain rest hsplit
    have huser : '\\' ∉ rest.filter (· ≠ '\\') := by simp
    simp only at h
    split at h
    · cases h
    · split at h
      · cases Option.some.inj h
        exact huser
      · cases Option.some.inj h
        intro hc
        rcases List.mem_append.mp hc with hc | hc
        · exact huser hc
        · exact (List.mem_cons.mp hc).elim (by decide) (not_mem_of_splitFirst hsplit)

theorem mem_of_mem_takeGroupMark {token : List Char} {c : Char} (h : c ∈ (takeGroupMark token).2) : c ∈ token := by
  unfold takeGroupMark at h
  split at h
  · exact List.mem_cons_of_mem _ h
  · exact h

/-- What separates the names of a list is in no name that a token gives. -/
theorem not_mem_of_identity? {token : List Char} {i : Identity} (h : identity? token = some i) {c : Char}
    (hc : c ∉ token) (hat : c ≠ '@') : c ∉ i.name.toList ∧ '\\' ∉ i.name.toList := by
  unfold identity? at h
  obtain ⟨name, hname, rfl⟩ := Option.map_eq_some_iff.mp h
  rw [String.toList_ofList]
  refine ⟨fun hmem => ?_, backslash_not_mem_accountName hname⟩
  have hbody := ((of_accountName? hname).2 c hmem).resolve_right hat
  exact hc (KeyFile.mem_of_mem_trim (mem_of_mem_takeGroupMark (List.mem_filter.mp hbody).1))

/-- A text that can be the name of an account: it is not empty, and it holds no blank, no separator and none of the
characters that no account name holds. -/
structure IsAccountName (name : String) : Prop where
  nonempty : name.toList ≠ []
  isBlank_eq_false : ∀ c ∈ name.toList, isBlank c = false
  not_mem_forbidden : ∀ c ∈ name.toList, c ∉ forbidden
  comma : ',' ∉ name.toList
  backslash : '\\' ∉ name.toList

/-- **The names of a list are names of accounts**, whatever the list is. -/
theorem isAccountName_of_mem {raw : String} {i : Identity} (h : i ∈ identities raw) : IsAccountName i.name := by
  obtain ⟨token, htoken, hi⟩ := mem_identities.mp h
  obtain ⟨hne, hchars⟩ := of_identity? hi
  obtain ⟨hcomma, hbackslash⟩ := not_mem_of_identity? hi (not_mem_of_mem_splitOn htoken) (by decide)
  refine ⟨hne, not_isBlank_of_mem_name h, fun c hc => ?_, hcomma, hbackslash⟩
  rcases hchars c hc with hc | rfl
  · simp only [isAllowed, Bool.and_eq_true, Bool.not_eq_true', List.contains_eq_mem, decide_eq_false_iff_not] at hc
    exact hc.1
  · decide

end AdminPolicy.IdentityList
