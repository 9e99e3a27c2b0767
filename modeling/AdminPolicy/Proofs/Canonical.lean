import AdminPolicy.Proofs.Layout

/-!
# Canonical identity lists

The identities of a list are in canonical form: the token of each is read back as it stands, by itself
(`ofToken?_token_of_isAccountName`) and in a list (`readToken_token`). So the tokens of all of them, joined by commas
or line feeds, are a list of the same identities, of which nothing is reported (`identities_canonical`).
-/

namespace AdminPolicy.IdentityList

open Text

/-! ## One token -/

/-- A token that is part of a list as it stands: it is not empty, and holds neither a blank nor a comma. -/
structure IsWord (t : List Char) : Prop where
  nonempty : t ≠ []
  isBlank_eq_false : ∀ c ∈ t, isBlank c = false
  comma : ',' ∉ t

theorem IsWord.not_mem_of_isBlank {t : List Char} (h : IsWord t) {c : Char} (hc : isBlank c = true) : c ∉ t := by
  intro hmem
  rw [h.isBlank_eq_false c hmem] at hc
  cases hc

variable {i : Identity}

theorem toList_token (i : Identity) : i.token.toList = (if i.isGroup then ['%'] else []) ++ i.name.toList := by
  unfold Identity.token
  split
  · exact String.toList_append
  · rfl

theorem isWord_token (h : IsAccountName i.name) : IsWord i.token.toList := by
  rw [toList_token]
  refine ⟨by simp [h.nonempty], fun c hc => ?_, fun hc => ?_⟩
  · rcases List.mem_append.mp hc with hc | hc
    · split at hc
      · exact List.mem_singleton.mp hc ▸ by decide
      · exact absurd hc List.not_mem_nil
    · exact h.isBlank_eq_false c hc
  · rcases List.mem_append.mp hc with hc | hc
    · split at hc
      · exact absurd hc (by decide)
      · exact absurd hc List.not_mem_nil
    · exact h.comma hc

/-- No name of an account begins with the mark of a group. -/
theorem head?_ne_groupMark (h : IsAccountName i.name) : i.name.toList.head? ≠ some '%' :=
  fun hhead => h.not_mem_forbidden '%' (List.mem_of_head? hhead) (by decide)

/-- The token of an account is read back by itself. -/
theorem ofToken?_token_of_isAccountName (h : IsAccountName i.name) : Identity.ofToken? i.token = some i :=
  Identity.ofToken?_token h.nonempty fun _ => head?_ne_groupMark h

theorem takeGroupMark_token (h : IsAccountName i.name) :
    takeGroupMark i.token.toList = (i.isGroup, i.name.toList) := by
  rw [toList_token]
  cases hg : i.isGroup with
  | true => rfl
  | false =>
    unfold takeGroupMark
    split
    · rename_i rest hname
      exact absurd (by simpa using congrArg List.head? hname) (head?_ne_groupMark h)
    · rfl

theorem splitFirst_eq_none {sep : Char} {s : List Char} (h : sep ∉ s) : splitFirst sep s = none := by
  induction s with
  | nil => rfl
  | cons c s ih =>
    have hc : c ≠ sep := fun e => h (by simp [e])
    rw [splitFirst, if_neg hc, ih fun hmem => h (List.mem_cons_of_mem _ hmem)]
    rfl

/-- A name of an account is what remains of it when it is read. -/
theorem accountName?_name (h : IsAccountName i.name) :
    accountName? (i.name.toList.filter isAllowed) = some i.name.toList := by
  have hfilter : i.name.toList.filter isAllowed = i.name.toList := by
    rw [List.filter_eq_self]
    intro c hc
    simp [isAllowed, h.isBlank_eq_false c hc, h.not_mem_forbidden c hc]
  rw [hfilter, accountName?, splitFirst_eq_none h.backslash]
  exact if_neg h.nonempty

theorem identity?_token (h : IsAccountName i.name) : identity? i.token.toList = some i := by
  have htrim : trim i.token.toList = i.token.toList :=
    (KeyFile.isValue_of_forall (isWord_token h).isBlank_eq_false).trim_eq
  rw [identity?, htrim, takeGroupMark_token h]
  dsimp only
  rw [accountName?_name h]
  simp

/-- The token of an account is kept in a list. -/
theorem readToken_token (h : IsAccountName i.name) : readToken i.token.toList = .kept i := by
  rw [readToken, identity?_token h]
  exact if_pos rfl

/-! ## Many tokens -/

theorem linesOfPieces_eq_self {ps : List (List Char)} (hne : ∀ p ∈ ps, p ≠ []) (hreturn : ∀ p ∈ ps, '\r' ∉ p) :
    linesOfPieces ps = ps := by
  induction ps using linesOfPieces.induct with
  | case1 => rfl
  | case2 => exact absurd rfl (hne [] List.mem_cons_self)
  | case3 last hlast => rw [linesOfPieces, if_neg hlast]
  | case4 p q ps ih =>
    have hstrip : stripReturn p = p :=
      if_neg fun hlast => hreturn p List.mem_cons_self (List.mem_of_getLast? hlast)
    rw [linesOfPieces, hstrip, ih (fun r hr => hne r (List.mem_cons_of_mem _ hr))
      fun r hr => hreturn r (List.mem_cons_of_mem _ hr)]

/-- Words are the tokens of a list of them, whichever of the separators it has. -/
theorem tokens_joinWith {ts : List (List Char)} (hne : ts ≠ []) (h : ∀ t ∈ ts, IsWord t) {sep : Char}
    (hsep : isSeparator sep = true) : tokens (joinWith [sep] ts) = ts := by
  have hcut : splitOn ',' (joinWith [','] ts) = ts := splitOn_joinWith hne fun t ht => (h t ht).comma
  simp only [isSeparator, Bool.or_eq_true, beq_iff_eq] at hsep
  rcases hsep with rfl | rfl
  · have hfeed : '\n' ∉ joinWith [','] ts := by
      intro hmem
      rcases mem_joinWith hmem with hmem | ⟨t, ht, hmem⟩
      · exact absurd hmem (by decide)
      · exact (h t ht).not_mem_of_isBlank (by decide) hmem
    have hnonempty : joinWith [','] ts ≠ [] := by
      intro hnil
      rw [hnil] at hcut
      exact (h [] (hcut ▸ List.mem_cons_self)).nonempty rfl
    have hlines : lines (joinWith [','] ts) = [joinWith [','] ts] := by
      rw [lines, splitOn_of_not_mem hfeed, linesOfPieces, if_neg hnonempty]
    rw [tokens, hlines, joinWith, hcut]
  · have hlines : lines (joinWith ['\n'] ts) = ts := by
      unfold lines
      rw [splitOn_joinWith hne fun t ht => (h t ht).not_mem_of_isBlank (by decide)]
      exact linesOfPieces_eq_self (fun t ht => (h t ht).nonempty) fun t ht => (h t ht).not_mem_of_isBlank (by decide)
    rw [tokens, hlines, hcut]

/-- The tokens of accounts are all kept, whichever separator joins them. -/
theorem readings_joinStrings {ids : List Identity} (hne : ids ≠ []) (h : ∀ i ∈ ids, IsAccountName i.name) {sep : String}
    (hsep : sep ∈ [",", "\n"]) : readings (joinStrings sep (ids.map Identity.token)) = ids.map .kept := by
  have hwords : ∀ t ∈ (ids.map Identity.token).map String.toList, IsWord t := by
    intro t ht
    obtain ⟨s, hs, rfl⟩ := List.mem_map.mp ht
    obtain ⟨i, hi, rfl⟩ := List.mem_map.mp hs
    exact isWord_token (h i hi)
  obtain ⟨c, hc, hsep⟩ : ∃ c, isSeparator c = true ∧ sep.toList = [c] := by
    simp only [List.mem_cons, List.not_mem_nil, or_false] at hsep
    rcases hsep with rfl | rfl
    · exact ⟨',', rfl, rfl⟩
    · exact ⟨'\n', rfl, rfl⟩
  rw [readings, joinStrings, String.toList_ofList, hsep, tokens_joinWith (by simpa using hne) hwords hc, List.map_map,
    List.map_map]
  refine List.map_congr_left fun i hi => ?_
  rw [Function.comp_apply, Function.comp_apply, readToken_token (h i hi)]

/-- **The identities of a list are canonical**, whatever the list is: each is an account that its token stands for, and
the tokens of all of them, joined by commas or line feeds, are a list of the same identities, of which nothing is
reported. -/
theorem identities_canonical (raw : String) :
    (∀ i ∈ identities raw, IsAccountName i.name ∧ Identity.ofToken? i.token = some i) ∧
    ∀ sep ∈ [",", "\n"],
      let text := joinStrings sep ((identities raw).map Identity.token)
      identities text = identities raw ∧ events text = [] := by
  have haccount : ∀ i ∈ identities raw, IsAccountName i.name := fun i hi => isAccountName_of_mem hi
  refine ⟨fun i hi => ⟨haccount i hi, ofToken?_token_of_isAccountName (haccount i hi)⟩, fun sep hsep => ?_⟩
  intro text
  by_cases hne : identities raw = []
  · have htext : text = "" := by simp [text, hne, joinStrings, joinWith]
    rw [htext, hne]
    decide
  · have hreadings : readings text = (identities raw).map .kept := readings_joinStrings hne haccount hsep
    refine ⟨?_, ?_⟩
    · rw [identities, hreadings, List.filterMap_map]
      exact List.filterMap_some
    · rw [events, hreadings, List.filterMap_map]
      exact List.filterMap_eq_nil_iff.mpr fun _ _ => rfl

/-- Two domains, a group, forbidden characters and a token that names nobody. -/
theorem identities_canonical_rewritten :
    let ids : List Identity := [⟨"al@EX@", false⟩, ⟨"ops@EX", true⟩, ⟨"b", false⟩, ⟨"b", false⟩]
    identities " EX@\\a\\l ,%EX\\ops\r\n%%,;b\nb" = ids ∧
      (∀ i ∈ ids, IsAccountName i.name ∧ Identity.ofToken? i.token = some i) ∧
      identities "al@EX@,%ops@EX,b,b" = ids ∧ events "al@EX@\n%ops@EX\nb\nb" = [] := by
  intro ids
  have hids : identities " EX@\\a\\l ,%EX\\ops\r\n%%,;b\nb" = ids := by decide +kernel
  obtain ⟨hcanonical, hagain⟩ := identities_canonical " EX@\\a\\l ,%EX\\ops\r\n%%,;b\nb"
  rw [hids] at hcanonical hagain
  have hcommas : joinStrings "," (ids.map Identity.token) = "al@EX@,%ops@EX,b,b" := by decide +kernel
  have hlines : joinStrings "\n" (ids.map Identity.token) = "al@EX@\n%ops@EX\nb\nb" := by decide +kernel
  obtain ⟨hsame, -⟩ := hagain "," (by decide)
  obtain ⟨-, hsilent⟩ := hagain "\n" (by decide)
  rw [hcommas] at hsame
  rw [hlines] at hsilent
  exact ⟨hids, hcanonical, hsame, hsilent⟩

end AdminPolicy.IdentityList
