import AdminPolicy.Proofs.Canonical
import Mathlib.Data.List.Forall2
import Mathlib.Data.List.TakeWhile

/-!
# What becomes of a token

No token of an identity list disappears or changes silently. Whom a token denotes is said without reading it
(`Denotes`): its account is named by the characters that an account name can hold, and it is a group if its first
character that is no blank is the mark. Reading agrees (`identity?_eq_some_iff`), and it finds nobody exactly when
nothing remains of a token but a domain (`accountName?_eq_none_iff`).

So each token is blank, canonical, rewritten or dropped, and no two of these at once (`explains_iff`); the identities
and the events of a list are those of its tokens, in their order (`readings_explained`).
-/

namespace AdminPolicy.IdentityList

open Text

/-! ## The account that a text names -/

/-- The name of the account that a text of allowed characters stands for. The first backslash parts a domain from a
user, who is named before the domain, and the other backslashes do not count. -/
inductive Names : List Char → List Char → Prop
  | plain {name : List Char} (hne : name ≠ []) (hname : '\\' ∉ name) : Names name name
  | noDomain {user : List Char} (huser : user.filter (· ≠ '\\') ≠ []) :
      Names ('\\' :: user) (user.filter (· ≠ '\\'))
  | inDomain {domain user : List Char} (hne : domain ≠ []) (hdomain : '\\' ∉ domain)
      (huser : user.filter (· ≠ '\\') ≠ []) :
      Names (domain ++ '\\' :: user) (user.filter (· ≠ '\\') ++ '@' :: domain)

/-- Nothing, or a domain with nothing but backslashes behind it. -/
def IsNameless (s : List Char) : Prop :=
  s = [] ∨ ∃ domain n, '\\' ∉ domain ∧ s = domain ++ '\\' :: List.replicate n '\\'

theorem eq_append_of_splitFirst {sep : Char} {s a b : List Char} (h : splitFirst sep s = some (a, b)) :
    s = a ++ sep :: b := by
  induction s generalizing a with
  | nil => cases h
  | cons c s ih =>
    unfold splitFirst at h
    split at h
    · rename_i hc
      cases Option.some.inj h
      rw [hc, List.nil_append]
    · obtain ⟨⟨a', b'⟩, hs, he⟩ := Option.map_eq_some_iff.mp h
      cases he
      rw [ih hs, List.cons_append]

theorem splitFirst_append_cons {sep : Char} {a : List Char} (h : sep ∉ a) (b : List Char) :
    splitFirst sep (a ++ sep :: b) = some (a, b) := by
  induction a with
  | nil => simp [splitFirst]
  | cons c a ih =>
    have hc : c ≠ sep := fun e => h (by simp [e])
    rw [List.cons_append, splitFirst, if_neg hc, ih fun hmem => h (List.mem_cons_of_mem _ hmem)]
    rfl

/-- The account that is read is the one that is named. -/
theorem accountName?_eq_some_iff {s name : List Char} : accountName? s = some name ↔ Names s name := by
  constructor
  · intro h
    unfold accountName? at h
    split at h
    · rename_i hsplit
      split at h
      · cases h
      · rename_i hne
        cases h
        exact .plain hne (not_mem_of_splitFirst_eq_none hsplit)
    · rename_i domain user hsplit
      rw [eq_append_of_splitFirst hsplit]
      simp only at h
      split at h
      · cases h
      · rename_i huser
        split at h
        · rename_i hdomain
          cases h
          rw [hdomain]
          exact .noDomain huser
        · rename_i hdomain
          cases h
          exact .inDomain hdomain (not_mem_of_splitFirst hsplit) huser
  · intro h
    cases h with
    | plain hne hname => rw [accountName?, splitFirst_eq_none hname]; exact if_neg hne
    | @noDomain user huser =>
      have hsplit : splitFirst '\\' ('\\' :: user) = some ([], user) := splitFirst_append_cons List.not_mem_nil user
      rw [accountName?, hsplit]
      exact (if_neg huser).trans (if_pos rfl)
    | inDomain hne hdomain huser =>
      rw [accountName?, splitFirst_append_cons hdomain]
      exact (if_neg huser).trans (if_neg hne)

theorem filter_backslash_eq_nil_iff {user : List Char} :
    user.filter (· ≠ '\\') = [] ↔ ∃ n, user = List.replicate n '\\' := by
  simp [List.filter_eq_nil_iff, List.eq_replicate_iff]

/-- **Nobody is named** by nothing, and by a domain without a user. -/
theorem accountName?_eq_none_iff {s : List Char} : accountName? s = none ↔ IsNameless s := by
  unfold accountName? IsNameless
  constructor
  · intro h
    split at h
    · split at h
      · exact Or.inl ‹_›
      · cases h
    · rename_i domain user hsplit
      simp only at h
      split at h
      · rename_i huser
        obtain ⟨n, hn⟩ := filter_backslash_eq_nil_iff.mp huser
        exact Or.inr ⟨domain, n, not_mem_of_splitFirst hsplit, hn ▸ eq_append_of_splitFirst hsplit⟩
      · split at h <;> cases h
  · rintro (rfl | ⟨domain, n, hdomain, rfl⟩)
    · rfl
    · rw [splitFirst_append_cons hdomain]
      exact if_pos (filter_backslash_eq_nil_iff.mpr ⟨n, rfl⟩)

/-! ## Whom a token denotes -/

/-- Whom a token denotes. Blanks and the characters that no account name holds, the mark of a group among them, are no
part of the name. -/
structure Denotes (t : List Char) (i : Identity) : Prop where
  name : Names (t.filter isAllowed) i.name.toList
  isGroup : i.isGroup = true ↔ t.find? (fun c => !isBlank c) = some '%'

/-- What trimming takes away. -/
theorem exists_trim (s : List Char) : ∃ front back, (∀ c ∈ front, isBlank c = true) ∧ (∀ c ∈ back, isBlank c = true) ∧
    s = front ++ (trim s ++ back) := by
  refine ⟨s.takeWhile isBlank, ((trimLeft s).reverse.takeWhile isBlank).reverse, fun _ => List.mem_takeWhile_imp,
    fun c hc => List.mem_takeWhile_imp (List.mem_reverse.mp hc), ?_⟩
  rw [trim, trimRight, ← List.reverse_append, List.takeWhile_append_dropWhile, List.reverse_reverse, trimLeft,
    List.takeWhile_append_dropWhile]

theorem trim_eq_nil_iff {t : List Char} : trim t = [] ↔ ∀ c ∈ t, isBlank c = true := by
  constructor
  · intro h c hc
    obtain ⟨front, back, hfront, hback, ht⟩ := exists_trim t
    rw [ht, h, List.nil_append] at hc
    exact (List.mem_append.mp hc).elim (hfront c) (hback c)
  · intro h
    rw [trim, trimLeft, List.dropWhile_eq_nil_iff.mpr h]
    rfl

theorem filter_isAllowed_of_blank {s : List Char} (h : ∀ c ∈ s, isBlank c = true) : s.filter isAllowed = [] :=
  List.filter_eq_nil_iff.mpr fun c hc => by simp [isAllowed, h c hc]

/-- Blanks around a token are no part of it, and neither is a mark in front of it. -/
theorem filter_body (t : List Char) : (takeGroupMark (trim t)).2.filter isAllowed = t.filter isAllowed := by
  have hmark : (takeGroupMark (trim t)).2.filter isAllowed = (trim t).filter isAllowed := by
    unfold takeGroupMark
    split
    · rename_i rest htrim
      rw [htrim, List.filter_cons_of_neg (by decide)]
    · rfl
  obtain ⟨front, back, hfront, hback, ht⟩ := exists_trim t
  conv_rhs => rw [ht]
  rw [hmark, List.filter_append, List.filter_append, filter_isAllowed_of_blank hfront, filter_isAllowed_of_blank hback,
    List.nil_append, List.append_nil]

theorem head?_trim_eq (t : List Char) : (trim t).head? = t.find? fun c => !isBlank c := by
  obtain ⟨front, back, hfront, hback, ht⟩ := exists_trim t
  conv_rhs => rw [ht]
  have hnone : ∀ s : List Char, (∀ c ∈ s, isBlank c = true) → s.find? (fun c => !isBlank c) = none :=
    fun s hs => List.find?_eq_none.mpr fun c hc => by simp [hs c hc]
  rw [List.find?_append, hnone front hfront, Option.none_or, List.find?_append, hnone back hback, Option.or_none]
  cases htrim : trim t with
  | nil => rfl
  | cons c s =>
    have hc : isBlank c = false := KeyFile.head?_trim t c (by rw [htrim]; rfl)
    rw [List.find?_cons_of_pos (by simp [hc])]
    rfl

theorem takeGroupMark_fst {s : List Char} : (takeGroupMark s).1 = true ↔ s.head? = some '%' := by
  unfold takeGroupMark
  split
  · simp
  · rename_i h
    cases s with
    | nil => simp
    | cons c s => simpa using fun hc => h s (by rw [hc])

/-- **Whom a token denotes is whom it is read as.** -/
theorem identity?_eq_some_iff {t : List Char} {i : Identity} : identity? t = some i ↔ Denotes t i := by
  have hread : identity? t = (accountName? (t.filter isAllowed)).map fun name =>
      ⟨String.ofList name, (takeGroupMark (trim t)).1⟩ := by
    rw [← filter_body]
    rfl
  have hmark : (takeGroupMark (trim t)).1 = true ↔ t.find? (fun c => !isBlank c) = some '%' :=
    takeGroupMark_fst.trans (by rw [head?_trim_eq])
  rw [hread, Option.map_eq_some_iff]
  constructor
  · rintro ⟨name, hname, rfl⟩
    exact ⟨by simpa using accountName?_eq_some_iff.mp hname, hmark⟩
  · rintro ⟨hname, hgroup⟩
    refine ⟨i.name.toList, accountName?_eq_some_iff.mpr hname, ?_⟩
    have hsame : (takeGroupMark (trim t)).1 = i.isGroup := Bool.eq_iff_iff.mpr (hmark.trans hgroup.symm)
    rw [hsame, String.ofList_toList]

theorem identity?_eq_none_iff {t : List Char} : identity? t = none ↔ IsNameless (t.filter isAllowed) := by
  rw [← accountName?_eq_none_iff, ← filter_body]
  exact Option.map_eq_none_iff

/-! ## Canonical tokens -/

/-- A token that is a name, perhaps behind the mark of a group. -/
def IsCanonical (t : List Char) : Prop :=
  ∃ mark name, (mark = [] ∨ mark = ['%']) ∧ name ≠ [] ∧
    (∀ c ∈ name, c ∉ forbidden ∧ isBlank c = false ∧ c ≠ '\\') ∧ t = mark ++ name

theorem isAllowed_iff {c : Char} : isAllowed c = true ↔ c ∉ forbidden ∧ isBlank c = false := by
  simp [isAllowed]

/-- A canonical token denotes the account whose token it is. -/
theorem IsCanonical.exists_denotes {t : List Char} (h : IsCanonical t) : ∃ i, Denotes t i ∧ i.token.toList = t := by
  obtain ⟨mark, name, hmark, hne, hname, rfl⟩ := h
  have hallowed : name.filter isAllowed = name :=
    List.filter_eq_self.mpr fun c hc => isAllowed_iff.mpr ⟨(hname c hc).1, (hname c hc).2.1⟩
  have hplain : Names name name := .plain hne fun hc => (hname _ hc).2.2 rfl
  rcases hmark with rfl | rfl
  · refine ⟨⟨String.ofList name, false⟩, ⟨by simpa [hallowed] using hplain, ?_⟩, by simp [toList_token]⟩
    -- a name does not begin with the mark
    obtain ⟨c, rest, rfl⟩ := List.exists_cons_of_ne_nil hne
    obtain ⟨hforbidden, hblank, -⟩ := hname c List.mem_cons_self
    have hc : c ≠ '%' := fun e => hforbidden (by rw [e]; decide)
    simp [hblank, hc]
  · have hskip : isAllowed '%' = false := by decide
    have hblank : isBlank '%' = false := by decide
    exact ⟨⟨String.ofList name, true⟩, ⟨by simpa [hallowed, hskip] using hplain, by simp [hblank]⟩,
      by simp [toList_token]⟩

/-- A token that its identity is written as is canonical. -/
theorem isCanonical_of_token {t : List Char} {i : Identity} (h : Denotes t i) (ht : i.token.toList = t) :
    IsCanonical t := by
  obtain ⟨hne, hchars⟩ := of_identity? (identity?_eq_some_iff.mpr h)
  have hbackslash : '\\' ∉ i.name.toList := backslash_not_mem_accountName (accountName?_eq_some_iff.mpr h.name)
  refine ⟨_, i.name.toList, ?_, hne, fun c hc => ?_, ht.symm.trans (toList_token i)⟩
  · cases i.isGroup <;> simp
  · have hallowed : isAllowed c = true := (hchars c hc).elim id fun e => e ▸ by decide
    obtain ⟨hforbidden, hblank⟩ := isAllowed_iff.mp hallowed
    exact ⟨hforbidden, hblank, fun e => hbackslash (e ▸ hc)⟩

/-! ## What becomes of it -/

/-- What becomes of a token. A canonical token is kept, another that denotes somebody is rewritten, and one that denotes
nobody is dropped, unless there is nothing to see of it. -/
inductive Explains (t : List Char) : Reading → Prop
  | blank (h : ∀ c ∈ t, isBlank c = true) : Explains t .blank
  | kept {i : Identity} (hcanonical : IsCanonical t) (hi : Denotes t i) (htoken : i.token.toList = t) :
      Explains t (.kept i)
  | rewritten {i : Identity} (hcanonical : ¬ IsCanonical t) (hi : Denotes t i) (htoken : i.token.toList ≠ t) :
      Explains t (.rewritten (String.ofList t) i)
  | dropped (h : ∃ c ∈ t, isBlank c = false) (hi : ∀ i, ¬ Denotes t i) : Explains t (.dropped (String.ofList t))

/-- A token denotes one identity at most. -/
theorem Denotes.unique {t : List Char} {i j : Identity} (hi : Denotes t i) (hj : Denotes t j) : i = j :=
  Option.some.inj ((identity?_eq_some_iff.mpr hi).symm.trans (identity?_eq_some_iff.mpr hj))

theorem explains_readToken (t : List Char) : Explains t (readToken t) := by
  unfold readToken
  split
  · rename_i i hread
    have hi := identity?_eq_some_iff.mp hread
    split
    · rename_i htoken
      exact .kept (isCanonical_of_token hi htoken) hi htoken
    · rename_i htoken
      refine .rewritten (fun hcanonical => ?_) hi htoken
      obtain ⟨j, hj, hjtoken⟩ := hcanonical.exists_denotes
      exact htoken (hi.unique hj ▸ hjtoken)
  · rename_i hread
    split
    · exact .blank (trim_eq_nil_iff.mp ‹_›)
    · rename_i htrim
      refine .dropped (by simpa using mt trim_eq_nil_iff.mpr htrim) fun i hi => ?_
      rw [identity?_eq_some_iff.mpr hi] at hread
      cases hread

/-- **One thing becomes of every token**, and it is what the token is read as. -/
theorem explains_iff {t : List Char} {r : Reading} : Explains t r ↔ readToken t = r := by
  constructor
  · intro h
    unfold readToken
    cases h with
    | blank h =>
      rw [identity?_eq_none_iff.mpr (Or.inl (filter_isAllowed_of_blank h))]
      exact if_pos (trim_eq_nil_iff.mpr h)
    | kept _ hi htoken =>
      rw [identity?_eq_some_iff.mpr hi]
      exact if_pos htoken
    | rewritten _ hi htoken =>
      rw [identity?_eq_some_iff.mpr hi]
      exact if_neg htoken
    | dropped h hi =>
      obtain ⟨c, hc, hblank⟩ := h
      rw [Option.eq_none_iff_forall_ne_some.mpr fun i hread => hi i (identity?_eq_some_iff.mp hread)]
      refine if_neg fun htrim => ?_
      rw [trim_eq_nil_iff.mp htrim c hc] at hblank
      cases hblank
  · rintro rfl
    exact explains_readToken t

/-- **When a token is dropped**: something of it is to be seen, and nothing of it names anybody. -/
theorem explains_dropped_iff {t : List Char} (h : ∃ c ∈ t, isBlank c = false) :
    Explains t (.dropped (String.ofList t)) ↔ IsNameless (t.filter isAllowed) := by
  rw [← identity?_eq_none_iff, Option.eq_none_iff_forall_ne_some]
  constructor
  · intro hdropped i hread
    cases hdropped with
    | dropped _ hi => exact hi i (identity?_eq_some_iff.mp hread)
  · exact fun hnone => .dropped h fun i hi => hnone i (identity?_eq_some_iff.mpr hi)

/-- What is reported of a token is a warning. -/
theorem level_of_event? {r : Reading} {e : Event} (h : r.event? = some e) : e.level = .warn := by
  cases r with
  | blank | kept i => cases h
  | rewritten token i => cases h; rfl
  | dropped token => cases h; rfl

/-- **No token disappears or changes silently.** Exactly one thing becomes of a token: it is blank, kept as canonical,
rewritten or dropped. A list names whom its tokens come to, and of it is reported what is reported of its tokens, all of
it warnings, both in the order of the tokens. A token that is not blank is dropped exactly when the characters in it
that an account name can hold are none, or a domain with nothing but backslashes behind it. -/
theorem readings_explained (raw : String) :
    (∃ rs, List.Forall₂ Explains (tokens raw.toList) rs ∧ identities raw = rs.filterMap Reading.identity? ∧
      events raw = rs.filterMap Reading.event?) ∧
    (∀ e ∈ events raw, e.level = .warn) ∧
    ∀ t ∈ tokens raw.toList, (∃! r, Explains t r) ∧
      ((∃ c ∈ t, isBlank c = false) →
        (Explains t (.dropped (String.ofList t)) ↔ IsNameless (t.filter isAllowed))) := by
  refine ⟨⟨readings raw, ?_, rfl, rfl⟩, fun e he => ?_, fun t _ => ⟨?_, explains_dropped_iff⟩⟩
  · rw [readings, List.forall₂_map_right_iff, List.forall₂_same]
    exact fun t _ => explains_readToken t
  · obtain ⟨r, _, hr⟩ := List.mem_filterMap.mp he
    exact level_of_event? hr
  · exact ⟨readToken t, explains_readToken t, fun r hr => (explains_iff.mp hr).symm⟩

/-- A name, a blank, a group of a domain and a domain with backslashes only. -/
theorem readings_explained_mixed :
    let raw := "bob, ,%EX\\ops\n;EX\\\\"
    identities raw = [⟨"bob", false⟩, ⟨"ops@EX", true⟩] ∧
      events raw = [.changedIdentity "%EX\\ops" "%ops@EX", .droppedIdentity ";EX\\\\"] ∧
      (∀ e ∈ events raw, e.level = .warn) ∧
      Explains ";EX\\\\".toList (.dropped ";EX\\\\") := by
  intro raw
  obtain ⟨-, hwarn, htokens⟩ := readings_explained raw
  have hcut : tokens raw.toList = ["bob".toList, " ".toList, "%EX\\ops".toList, ";EX\\\\".toList] := by decide +kernel
  rw [hcut] at htokens
  obtain ⟨-, hdropped⟩ := htokens ";EX\\\\".toList (by simp)
  refine ⟨by decide +kernel, by decide +kernel, hwarn, ?_⟩
  exact (hdropped ⟨';', by decide, by decide⟩).mpr (Or.inr ⟨['E', 'X'], 1, by decide, by decide⟩)

end AdminPolicy.IdentityList
