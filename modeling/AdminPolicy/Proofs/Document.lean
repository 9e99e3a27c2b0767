import AdminPolicy.Proofs.Compilation
import AdminPolicy.Proofs.KeyFile

/-!
# Reading the authorization document back

The administrators that a compiled policy names are a value (`isValue_adminIdentities`): granted names hold no blanks,
and what is prepended was read as a value. So the document is read back as it was meant (`get?_of_render?`).
-/

namespace AdminPolicy

open Text KeyFile

/-! ## What a policy names -/

/-- A text that holds no blank. -/
def Blankless (s : String) : Prop := ∀ c ∈ s.toList, isBlank c = false

instance (s : String) : Decidable (Blankless s) :=
  decidable_of_iff (s.toList.all fun c => !isBlank c) (by simp [Blankless])

theorem mem_joinWith {sep : List Char} {c : Char} {ps : List (List Char)} (h : c ∈ joinWith sep ps) :
    c ∈ sep ∨ ∃ p ∈ ps, c ∈ p := by
  induction ps using joinWith.induct with
  | case1 => exact absurd h List.not_mem_nil
  | case2 p => exact Or.inr ⟨p, List.mem_cons_self, h⟩
  | case3 p q ps ih =>
    unfold joinWith at h
    rcases List.mem_append.mp h with h | h
    · rcases List.mem_append.mp h with h | h
      · exact Or.inr ⟨p, List.mem_cons_self, h⟩
      · exact Or.inl h
    · rcases ih h with hc | ⟨r, hr, hc⟩
      · exact Or.inl hc
      · exact Or.inr ⟨r, List.mem_cons_of_mem _ hr, hc⟩

theorem blankless_joinStrings {sep : String} {pieces : List String} (hs : Blankless sep)
    (hp : ∀ p ∈ pieces, Blankless p) : Blankless (joinStrings sep pieces) := by
  intro c hc
  simp only [joinStrings, String.toList_ofList] at hc
  rcases mem_joinWith hc with hc | ⟨_, hp', hc⟩
  · exact hs c hc
  · obtain ⟨p, hmem, rfl⟩ := List.mem_map.mp hp'
    exact hp p hmem c hc

theorem blankless_append {a b : String} (ha : Blankless a) (hb : Blankless b) : Blankless (a ++ b) := by
  intro c hc
  rw [String.toList_append] at hc
  exact (List.mem_append.mp hc).elim (ha c) (hb c)

theorem blankless_authorizationName {i : Identity} (h : Blankless i.name) : Blankless i.authorizationName := by
  unfold Identity.authorizationName
  split
  · exact blankless_append (by decide) h
  · exact blankless_append (by decide) h

/-- The names that a document grants hold no blanks, nor do the separators between them. -/
theorem blankless_joinStrings_lastGrants (entries : List Entry) :
    Blankless (joinStrings ";" ((lastGrants entries).map Identity.authorizationName)) := by
  refine blankless_joinStrings (by decide) fun n hn => ?_
  obtain ⟨i, hi, rfl⟩ := List.mem_map.mp hn
  exact blankless_authorizationName (isAccountName_of_mem_lastGrants hi).isBlank_eq_false

/-- **What a compiled policy names is a value**, if what it was given is one. -/
theorem isValue_adminIdentities {entries : List Entry} {v ids : String} (hv : IsValue v.toList)
    (h : (compile entries v).authorization.adminIdentities? = some ids) : IsValue ids.toList := by
  have hg := blankless_joinStrings_lastGrants entries
  rcases authorization_compile entries v with ⟨ha, _⟩ | ⟨ha, _⟩ | ha
  · rw [ha] at h
    cases h
  · rw [ha] at h
    simp only [Authorization.adminIdentities?] at h
    split at h
    · cases Option.some.inj h
      exact isValue_of_forall hg
    · cases Option.some.inj h
      rw [String.append_assoc, String.toList_append]
      refine hv.append (blankless_append (by decide) hg) ?_
      simp [String.toList_append]
  · rw [ha] at h
    cases Option.some.inj h
    exact isValue_of_forall hg

/-! ## Reading it back -/

namespace Authorization

/-- Every authorization but the absent one names somebody, be it by an empty value. -/
theorem exists_adminIdentities?_of_ne_absent {a : Authorization} (h : a ≠ .absent) :
    ∃ ids, a.adminIdentities? = some ids := by
  cases a with
  | absent => exact absurd rfl h
  | merged system granted => exact ⟨_, (apply_ite some _ _ _).symm⟩
  | explicitOnly granted => exact ⟨_, rfl⟩

/-- What names somebody has a document. -/
theorem exists_render?_of_adminIdentities? {a : Authorization} {ids : String} (h : a.adminIdentities? = some ids) :
    ∃ document, a.render? = some document := by
  unfold render?
  rw [h]
  exact ⟨_, rfl⟩

end Authorization

/-- A line of comment is nothing to a reader. -/
theorem scan_commentLine {text : List Char} (h : '\n' ∉ text) (line : Nat) (rest : List Char) :
    scan .between line true ('#' :: (text ++ '\n' :: rest)) = scan .between (line + 1) true rest :=
  scan_comment h line false rest

/-- Neither are the comments in front of a generated file. -/
theorem scan_generatedHeader (rest : List Char) :
    scan .between 0 true (generatedHeader.toList ++ rest) = scan .between 4 true rest := by
  have h : generatedHeader.toList ++ rest =
      '#' :: (" This file is managed by privguard.".toList ++ '\n' ::
        '#' :: (" Do not edit this file manually.".toList ++ '\n' ::
          '#' :: (" Any changes will be overwritten.".toList ++ '\n' :: '\n' :: rest))) := by
    simp [generatedHeader]
  rw [h, scan_commentLine (by decide), scan_commentLine (by decide), scan_commentLine (by decide)]
  rfl

/-- The items of a section with one assignment. -/
theorem scan_setting {name key value : List Char} (hname : '\n' ∉ name) (hname' : ']' ∉ name) (hkey : '\n' ∉ key)
    (hkey' : '=' ∉ key) (hkey'' : ':' ∉ key) {c : Char} (hc : isBlank c = false) (hc' : c ∉ ['#', ';', '[', '=', ':'])
    (hvalue : IsValue value) (line : Nat) :
    scan .between line true ('[' :: (name ++ ']' :: '\n' :: c :: (key ++ '=' :: (value ++ ['\n'])))) =
      .ok [.header (trim name), .assignment (trim (c :: key)) value] := by
  have hheader : ∀ rest, scan .between line true ('[' :: rest) = scan (.header []) line false rest := fun _ => rfl
  have hbreak : ∀ rest, scan .between line false ('\n' :: rest) = scan .between (line + 1) true rest := fun _ => rfl
  have hfirst : ∀ rest, scan .between (line + 1) true (c :: rest) = scan (.key [c]) (line + 1) false rest := by
    intro rest
    simp only [List.mem_cons, List.not_mem_nil, or_false, not_or] at hc'
    have hn : c ≠ '\n' := fun e => absurd hc (by rw [e]; decide)
    simp [scan, hc, hc', hn]
  rw [hheader, scan_header hname hname', hbreak, hfirst, scan_key hkey hkey' hkey'',
    scan_value hvalue.lineFeed hvalue.carriageReturn]
  simp [collected, scan, Except.map, hvalue.trim_eq]

/-- **The document is read back**: the administrators that it names are what its text assigns. -/
theorem get?_of_render? {a : Authorization} {document ids : String} (hd : a.render? = some document)
    (hi : a.adminIdentities? = some ids) (hv : IsValue ids.toList) :
    ∃ file, KeyFile.parse document = .ok file ∧
      file.get? Authorization.sectionName Authorization.keyName = some ids := by
  have hdocument : document.toList = generatedHeader.toList ++ ('[' :: (Authorization.sectionName.toList ++ ']' ::
      '\n' :: 'A' :: ("dminIdentities".toList ++ '=' :: (ids.toList ++ ['\n'])))) := by
    unfold Authorization.render? at hd
    rw [hi] at hd
    cases Option.some.inj hd
    simp [Authorization.keyName, String.toList_append]
  have hscan : scan .between 0 true (dropMark document.toList) =
      .ok [.header "Configuration".toList, .assignment "AdminIdentities".toList ids.toList] := by
    have hmark : dropMark document.toList = document.toList := by
      rw [hdocument]
      rfl
    rw [hmark, hdocument, scan_generatedHeader, scan_setting (by decide) (by decide) (by decide) (by decide)
      (by decide) (by decide) (by decide) hv]
    rfl
  refine ⟨⟨blocksFrom none [] [.header "Configuration".toList, .assignment "AdminIdentities".toList ids.toList]⟩,
    ?_, ?_⟩
  · unfold KeyFile.parse
    rw [hscan]
    rfl
  · simp [blocksFrom, KeyFile.get?, Authorization.sectionName, Authorization.keyName, List.findRev?]

end AdminPolicy
