import AdminPolicy.Enforcement
import AdminPolicy.Proofs.Memory

/-!
# The places of the generated files

An enforcer writes at four places: the two targets and the temporary places beside them. Each is a name seen from one
of the two directories, and the four names differ, so no two of the places are the same, whatever the directories are
(`apart_targets`). None of the four is a directory of fragments (`not_isOwnPlace_fragmentDirectory`) or a fragment of
others in it (`not_isOwnPlace_join`).
-/

namespace AdminPolicy

open Memory

/-- The four places that an installation changes are pairwise different. -/
structure Targets.Apart (ts : Targets) : Prop where
  rules_authorization : ¬ ts.rules.Same ts.authorization
  rules_temporary : ¬ ts.rules.Same (Installation.temporary ts.rules)
  rules_temporaryAuthorization : ¬ ts.rules.Same (Installation.temporary ts.authorization)
  authorization_temporaryRules : ¬ ts.authorization.Same (Installation.temporary ts.rules)
  authorization_temporary : ¬ ts.authorization.Same (Installation.temporary ts.authorization)
  temporary_temporary : ¬ (Installation.temporary ts.rules).Same (Installation.temporary ts.authorization)

/-- The places that an installation changes. -/
def Targets.IsOwnPlace (ts : Targets) (p : HostPath) : Prop :=
  ts.rules.Same p ∨ ts.authorization.Same p ∨ (Installation.temporary ts.rules).Same p ∨
    (Installation.temporary ts.authorization).Same p

namespace Targets

theorem isOwnPlace_rules (ts : Targets) : ts.IsOwnPlace ts.rules := Or.inl (HostPath.Same.refl _)

theorem isOwnPlace_authorization (ts : Targets) : ts.IsOwnPlace ts.authorization :=
  Or.inr (Or.inl (HostPath.Same.refl _))

theorem isOwnPlace_temporary_rules (ts : Targets) : ts.IsOwnPlace (Installation.temporary ts.rules) :=
  Or.inr (Or.inr (Or.inl (HostPath.Same.refl _)))

theorem isOwnPlace_temporary_authorization (ts : Targets) : ts.IsOwnPlace (Installation.temporary ts.authorization) :=
  Or.inr (Or.inr (Or.inr (HostPath.Same.refl _)))

theorem IsOwnPlace.not_same {ts : Targets} {p q : HostPath} (hp : ts.IsOwnPlace p) (hq : ¬ ts.IsOwnPlace q) :
    ¬ p.Same q := by
  intro h
  unfold IsOwnPlace HostPath.Same at *
  rw [h] at hp
  exact hq hp

end Targets

/-! ## Temporary names -/

namespace Installation

theorem temporary_join {dir : HostPath} {n : String} (hn : HostPath.IsName n)
    (hn' : HostPath.IsName (n ++ temporarySuffix)) : temporary (dir.join n) = dir.join (n ++ temporarySuffix) := by
  unfold temporary HostPath.join
  simp only [HostPath.not_isAbsolute_of_isName hn, HostPath.not_isAbsolute_of_isName hn', Bool.false_eq_true,
    ↓reduceIte]
  split <;> simp [String.append_assoc]

end Installation

namespace Enforcer

open Installation

theorem isName_baseFileName : HostPath.IsName baseFileName := by decide

theorem isName_ownFragmentName : HostPath.IsName ownFragmentName := by decide

theorem isName_temporary_baseFileName : HostPath.IsName (baseFileName ++ temporarySuffix) := by decide

theorem isName_temporary_ownFragmentName : HostPath.IsName (ownFragmentName ++ temporarySuffix) := by decide

theorem isName_fragmentDirectoryName : HostPath.IsName fragmentDirectoryName := by decide

variable (e : Enforcer)

theorem temporary_rules : temporary e.targets.rules = e.sudoersDirectory.join (baseFileName ++ temporarySuffix) :=
  temporary_join isName_baseFileName isName_temporary_baseFileName

theorem temporary_authorization :
    temporary e.targets.authorization = e.fragmentDirectory.join (ownFragmentName ++ temporarySuffix) :=
  temporary_join isName_ownFragmentName isName_temporary_ownFragmentName

/-- **The four places differ**, whatever the directories are. -/
theorem apart_targets : e.targets.Apart where
  rules_authorization := HostPath.not_same_join _ _ isName_baseFileName isName_ownFragmentName (by decide)
  rules_temporary := by
    rw [temporary_rules]
    exact HostPath.not_same_join _ _ isName_baseFileName isName_temporary_baseFileName (by decide)
  rules_temporaryAuthorization := by
    rw [temporary_authorization]
    exact HostPath.not_same_join _ _ isName_baseFileName isName_temporary_ownFragmentName (by decide)
  authorization_temporaryRules := by
    rw [temporary_rules]
    exact HostPath.not_same_join _ _ isName_ownFragmentName isName_temporary_baseFileName (by decide)
  authorization_temporary := by
    rw [temporary_authorization]
    exact HostPath.not_same_join _ _ isName_ownFragmentName isName_temporary_ownFragmentName (by decide)
  temporary_temporary := by
    rw [temporary_rules, temporary_authorization]
    exact HostPath.not_same_join _ _ isName_temporary_baseFileName isName_temporary_ownFragmentName (by decide)

/-- The names of the four places. -/
def reservedNames : List String :=
  [baseFileName, ownFragmentName, baseFileName ++ temporarySuffix, ownFragmentName ++ temporarySuffix]

/-- A name that is none of the four names is no place of an installation. -/
theorem not_isOwnPlace_join (dir : HostPath) {n : String} (hn : HostPath.IsName n) (h : n ∉ reservedNames) :
    ¬ e.targets.IsOwnPlace (dir.join n) := by
  unfold reservedNames at h
  unfold Targets.IsOwnPlace
  rw [temporary_rules, temporary_authorization]
  rintro (hs | hs | hs | hs)
  · exact h (by simp [← HostPath.name_eq_of_same_join isName_baseFileName hn hs])
  · exact h (by simp [← HostPath.name_eq_of_same_join isName_ownFragmentName hn hs])
  · exact h (by simp [← HostPath.name_eq_of_same_join isName_temporary_baseFileName hn hs])
  · exact h (by simp [← HostPath.name_eq_of_same_join isName_temporary_ownFragmentName hn hs])

/-- A fragment of others is no place of an installation: the names of the other places end otherwise. -/
theorem not_isOwnPlace_fragment (dir : HostPath) {n : String} (hn : HostPath.IsName n)
    (hf : Fragments.isFragmentName n = true) (ho : n ≠ ownFragmentName) : ¬ e.targets.IsOwnPlace (dir.join n) := by
  refine not_isOwnPlace_join e dir hn fun h => ?_
  simp only [reservedNames, List.mem_cons, List.not_mem_nil, or_false] at h
  rcases h with rfl | h | rfl | rfl
  · exact absurd hf (by decide)
  · exact ho h
  · exact absurd hf (by decide)
  · exact absurd hf (by decide)

/-- A directory of fragments is no place of an installation. -/
theorem not_isOwnPlace_fragmentDirectory (dir : HostPath) :
    ¬ e.targets.IsOwnPlace (dir.join fragmentDirectoryName) :=
  not_isOwnPlace_join e dir isName_fragmentDirectoryName (by decide)

end Enforcer

/-! ## What the targets hold -/

/-- The files at the two targets: contents and mode of each, if there is a file. -/
structure TargetFiles where
  rules : Option (ByteArray × Mode)
  authorization : Option (ByteArray × Mode)

/-- The files that a tree holds at the targets. -/
def Targets.files (ts : Targets) (t : Tree) : TargetFiles := ⟨t.file? ts.rules, t.file? ts.authorization⟩

theorem Targets.files_congr {ts : Targets} {t t' : Tree} (hr : t'.file? ts.rules = t.file? ts.rules)
    (ha : t'.file? ts.authorization = t.file? ts.authorization) : ts.files t' = ts.files t := by
  unfold files
  rw [hr, ha]

/-- The files that a policy comes to: its renderings, each with the mode of its kind. -/
def CompiledPolicy.files (p : CompiledPolicy) : TargetFiles where
  rules := some (p.renderRules.toUTF8, 0o600)
  authorization := p.authorization.render?.map fun document => (document.toUTF8, 0o644)

/-- Both targets hold files with these contents, or none, as a reader of the host's states sees them. -/
def Targets.Hold {σ : Type} (read : HostPath → σ → Option ByteArray) (ts : Targets)
    (rules authorization : Option ByteArray) (s : σ) : Prop :=
  read ts.rules s = rules ∧ read ts.authorization s = authorization

end AdminPolicy
