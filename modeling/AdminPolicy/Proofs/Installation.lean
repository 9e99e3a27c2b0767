import AdminPolicy.Proofs.Run
import AdminPolicy.Proofs.Targets

/-!
# The course of an installation

What the pieces of an installation do to a tree behind any backed host, each said once, and from them what a whole
installation does at every point of its run (`ensures_commit`) and what a removal of both files does
(`ensures_removeAll`). The pair of target files goes from the old one to the new one by way of new rules and old
authorization (`OnTheWay`), and no failure leaves it beyond that (`Halfway`).
-/

namespace AdminPolicy

/-- The files before, or with the rules alone replaced. -/
def TargetFiles.Halfway (old new files : TargetFiles) : Prop := files = old ∨ files = ⟨new.rules, old.authorization⟩

/-- The files before, with the rules alone replaced, or with both replaced. -/
def TargetFiles.OnTheWay (old new files : TargetFiles) : Prop := Halfway old new files ∨ files = new

namespace Installation

open Memory

variable {σ : Type} {host : Host σ} {tree : σ → Tree} {I : σ → Prop} {Q : Unit → σ → Prop}
  {E : PolicyError → σ → Prop} {s : σ}

/-! ## Single steps -/

/-- Making the directory of a path changes no file. -/
theorem ensures_ensureParent (hb : Backed host tree) {p : HostPath}
    (hI : ∀ s', (∀ q, (tree s').file? q = (tree s).file? q) → I s')
    (hQ : ∀ s', (∀ q, (tree s').file? q = (tree s).file? q) → Q () s')
    (hE : ∀ e s', (∀ q, (tree s').file? q = (tree s).file? q) → E e s') :
    (ensureParent p).Ensures host I Q E s := by
  unfold ensureParent
  split
  · refine Action.ensures_ite (fun _ => Action.ensures_pure (hQ s fun _ => rfl)) fun _ => ?_
    refine Action.ensures_attempt (fun r hr => ?_) fun e he => ?_
    · obtain ⟨_, ht⟩ := hb.effect hr
      have hf : ∀ q, (tree (host _ s).2).file? q = (tree s).file? q := fun q => by
        rw [ht, Tree.file?_putDirectories]
      exact ⟨hI _ hf, hQ _ hf⟩
    · have hf := hb.file?_of_error he
      exact ⟨hI _ hf, hE _ _ hf⟩
  · exact Action.ensures_pure (hQ s fun _ => rfl)

/-- Staging a file changes no file but the one at the temporary place, and none if it fails. -/
theorem ensures_stage (hb : Backed host tree) {p : HostPath} {contents : String} {mode : Mode}
    (hI : ∀ s', (∀ q, ¬ (temporary p).Same q → (tree s').file? q = (tree s).file? q) → I s')
    (hQ : ∀ s', (∀ q, ¬ (temporary p).Same q → (tree s').file? q = (tree s).file? q) →
      (tree s').file? (temporary p) = some (contents.toUTF8, mode) → Q () s')
    (hE : ∀ e s', (∀ q, (tree s').file? q = (tree s).file? q) → E e s') :
    (stage p contents mode).Ensures host I Q E s := by
  unfold stage
  refine Action.ensures_bind (R := fun _ s' => ∀ q, (tree s').file? q = (tree s).file? q)
    (ensures_ensureParent hb (fun s' h => hI s' fun q _ => h q) (fun _ h => h) hE) fun _ s' hs' => ?_
  refine Action.ensures_attempt (fun r hr => ?_) fun e he => ?_
  · obtain ⟨_, _, ht⟩ := hb.effect hr
    have hf : ∀ q, ¬ (temporary p).Same q → (tree (host _ s').2).file? q = (tree s).file? q := fun q hq => by
      rw [← hs' q]
      exact Tree.file?_of_lookup (by rw [ht, Tree.lookup_put, if_neg hq])
    have hstaged : (tree (host _ s').2).file? (temporary p) = some (contents.toUTF8, mode) :=
      Tree.file?_eq_some_iff.mpr (by rw [ht, Tree.lookup_put, if_pos (HostPath.Same.refl _)])
    exact ⟨hI _ hf, hQ _ hf hstaged⟩
  · have hf : ∀ q, (tree (host _ s').2).file? q = (tree s).file? q := fun q => by
      rw [hb.file?_of_error he, hs' q]
    exact ⟨hI _ fun q _ => hf q, hE _ _ hf⟩

/-- Installing moves the staged file to its place, or fails and changes nothing. -/
theorem ensures_install (hb : Backed host tree) {p : HostPath} {c : ByteArray} {m : Mode}
    (hf : (tree s).file? (temporary p) = some (c, m))
    (hok : ∀ s', (∀ q, (tree s').lookup q = if p.Same q then some (.file c m)
      else if (temporary p).Same q then none else (tree s).lookup q) → I s' ∧ Q () s')
    (herr : ∀ e s', (∀ q, (tree s').lookup q = (tree s).lookup q) → I s' ∧ E e s') :
    (install p).Ensures host I Q E s := by
  refine Action.ensures_attempt (fun r hr => ?_) fun e he => herr _ _ (hb.lookup_of_error he)
  obtain ⟨_, _, c', m', hf', ht⟩ := hb.effect hr
  obtain ⟨rfl, rfl⟩ : c' = c ∧ m' = m := by
    rw [Tree.file?_eq_some_iff.mpr hf'] at hf
    cases hf
    exact ⟨rfl, rfl⟩
  exact hok _ fun q => by rw [ht, Tree.lookup_put, Tree.lookup_erase]

/-- Giving up a staged file changes no other place. -/
theorem ensures_discard (hb : Backed host tree) {p : HostPath}
    (h : ∀ s', (∀ q, ¬ (temporary p).Same q → (tree s').lookup q = (tree s).lookup q) → I s' ∧ Q () s') :
    Program.Ensures host I (discard p) Q s := by
  unfold discard
  cases ha : (host (.removeFile (temporary p)) s).1 with
  | ok r =>
    obtain ⟨_, ht⟩ := hb.effect ha
    obtain ⟨hI, hQ⟩ := h _ fun q hq => by rw [ht, Tree.lookup_erase, if_neg hq]
    exact Program.ensures_request hI (by rw [ha]; exact Program.ensures_done hQ)
  | error e =>
    obtain ⟨hI, hQ⟩ := h _ fun q _ => hb.lookup_of_error ha q
    exact Program.ensures_request hI (by rw [ha]; exact Program.ensures_report (Program.ensures_done hQ))

/-- Removing a file that may be missing empties its place, or fails and changes nothing. -/
theorem ensures_removeIfExists (hb : Backed host tree) (ha : ReportsAbsence host tree) {p : HostPath}
    (hok : ∀ s', (∀ q, (tree s').lookup q = if p.Same q then none else (tree s).lookup q) → I s' ∧ Q () s')
    (herr : ∀ e s', (∀ q, (tree s').lookup q = (tree s).lookup q) → I s' ∧ E e s') :
    (removeIfExists p).Ensures host I Q E s := by
  unfold removeIfExists Action.Ensures
  rw [Action.program_of]
  cases hr : (host (.removeFile p) s).1 with
  | ok r =>
    obtain ⟨_, ht⟩ := hb.effect hr
    obtain ⟨hI, hQ⟩ := hok _ fun q => by rw [ht, Tree.lookup_erase]
    exact Program.ensures_request hI (by rw [hr]; exact Program.ensures_report (Program.ensures_done hQ))
  | error e =>
    have hsame := hb.lookup_of_error hr
    by_cases hk : e.kind = .notFound
    · -- nothing was there, so nothing had to change
      have hnone := ha p s e hr hk
      obtain ⟨hI, hQ⟩ := hok _ fun q => by
        rw [hsame q]
        split
        · rename_i hpq; rw [← Tree.lookup_congr _ hpq, hnone]
        · rfl
      refine Program.ensures_request hI ?_
      rw [hr]
      simp only [hk, ↓reduceIte]
      exact Program.ensures_done hQ
    · obtain ⟨hI, hE⟩ := herr (.io .remove p e) _ hsame
      refine Program.ensures_request hI ?_
      rw [hr]
      simp only [hk, ↓reduceIte]
      exact Program.ensures_done hE

/-! ## Installing and removing -/

variable {ts : Targets}

/-- Staging the document changes no file but at the temporary places: if it fails, only staged rules are gone. -/
theorem ensures_stageAuthorization (hb : Backed host tree) {document : String}
    (hI : ∀ s', (∀ q, ¬ (temporary ts.rules).Same q → ¬ (temporary ts.authorization).Same q →
      (tree s').file? q = (tree s).file? q) → I s')
    (hQ : ∀ s', (∀ q, ¬ (temporary ts.authorization).Same q → (tree s').file? q = (tree s).file? q) →
      (tree s').file? (temporary ts.authorization) = some (document.toUTF8, authorizationMode) → Q () s')
    (hE : ∀ e s', (∀ q, ¬ (temporary ts.rules).Same q → (tree s').file? q = (tree s).file? q) → E e s') :
    (stageAuthorization ts document).Ensures host I Q E s := by
  unfold stageAuthorization Action.Ensures
  rw [Action.program_of]
  refine Program.ensures_bind
    (ensures_stage hb (E := fun _ s' => ∀ q, (tree s').file? q = (tree s).file? q)
      (fun s' h => hI s' fun q _ hq => h q hq) hQ fun _ _ h => h) fun r s' hr => ?_
  cases r with
  | ok _ => exact Program.ensures_done hr
  | error e =>
    refine Program.ensures_bind (R := fun _ s'' => ∀ q, ¬ (temporary ts.rules).Same q →
      (tree s'').file? q = (tree s).file? q) (ensures_discard hb fun s'' h => ?_) fun _ s'' h =>
        Program.ensures_done (hE e s'' h)
    have hf : ∀ q, ¬ (temporary ts.rules).Same q → (tree s'').file? q = (tree s).file? q := fun q hq => by
      rw [Tree.file?_of_lookup (h q hq), hr q]
    exact ⟨hI _ fun q hq _ => hf q hq, hf⟩

/-- Both files of a policy are in their places, and nothing that was staged for them is left. -/
structure Installed (ts : Targets) (p : CompiledPolicy) (t : Tree) : Prop where
  rules : t.lookup ts.rules = some (.file p.renderRules.toUTF8 rulesMode)
  authorization : t.lookup ts.authorization =
    p.authorization.render?.map fun document => .file document.toUTF8 authorizationMode
  temporaryRules : t.lookup (temporary ts.rules) = none
  temporaryAuthorization : p.authorization.render?.isSome → t.lookup (temporary ts.authorization) = none

theorem Installed.files_eq {p : CompiledPolicy} {t : Tree} (h : Installed ts p t) : ts.files t = p.files := by
  unfold Targets.files CompiledPolicy.files
  rw [Tree.file?_eq_some_iff.mpr h.rules]
  cases hr : p.authorization.render? with
  | none =>
    have := h.authorization
    rw [hr] at this
    rw [Tree.file?_of_none this]
    rfl
  | some document =>
    have := h.authorization
    rw [hr] at this
    rw [Tree.file?_eq_some_iff.mpr this]
    rfl

/-- The rules of a policy are in their place, and the authorization document is still the old one. -/
structure RulesInstalled (ts : Targets) (p : CompiledPolicy) (old : TargetFiles) (t : Tree) : Prop where
  rules : t.lookup ts.rules = some (.file p.renderRules.toUTF8 rulesMode)
  temporaryRules : t.lookup (temporary ts.rules) = none
  authorization : t.file? ts.authorization = old.authorization

theorem RulesInstalled.files_eq {p : CompiledPolicy} {old : TargetFiles} {t : Tree}
    (h : RulesInstalled ts p old t) : ts.files t = ⟨p.files.rules, old.authorization⟩ := by
  unfold Targets.files
  rw [Tree.file?_eq_some_iff.mpr h.rules, h.authorization]
  rfl

/-- Installing staged rules, the targets being as of old: the rules are replaced, and nothing else but the staged
file. -/
theorem ensures_install_rules (hb : Backed host tree) (ha : ts.Apart) {p : CompiledPolicy} {old : TargetFiles}
    (hold : ts.files (tree s) = old)
    (hf : (tree s).file? (temporary ts.rules) = some (p.renderRules.toUTF8, rulesMode)) :
    (install ts.rules).Ensures host (fun s' => TargetFiles.OnTheWay old p.files (ts.files (tree s')))
      (fun _ s' => RulesInstalled ts p old (tree s') ∧
        (tree s').file? (temporary ts.authorization) = (tree s).file? (temporary ts.authorization))
      (fun _ s' => TargetFiles.Halfway old p.files (ts.files (tree s'))) s := by
  refine ensures_install hb hf (fun s' h => ?_) fun _ s' h => ?_
  · have hi : RulesInstalled ts p old (tree s') := by
      refine ⟨?_, ?_, ?_⟩
      · rw [h, if_pos (HostPath.Same.refl _)]
      · rw [h, if_neg ha.rules_temporary, if_pos (HostPath.Same.refl _)]
      · rw [← hold]
        exact Tree.file?_of_lookup (by
          rw [h, if_neg ha.rules_authorization, if_neg (mt HostPath.Same.symm ha.authorization_temporaryRules)])
    refine ⟨Or.inl (Or.inr hi.files_eq), hi, Tree.file?_of_lookup ?_⟩
    rw [h, if_neg ha.rules_temporaryAuthorization, if_neg ha.temporary_temporary]
  · have hfiles : ts.files (tree s') = old := by
      rw [← hold]
      exact Targets.files_congr (Tree.file?_of_lookup (h _)) (Tree.file?_of_lookup (h _))
    exact ⟨Or.inl (Or.inl hfiles), Or.inl hfiles⟩

/-- Installing the staged document after the rules: the policy is installed, or the document is still the old one. -/
theorem ensures_install_authorization (hb : Backed host tree) (ha : ts.Apart) {p : CompiledPolicy}
    {old : TargetFiles} {document : String} (hd : p.authorization.render? = some document)
    (hold : RulesInstalled ts p old (tree s))
    (hf : (tree s).file? (temporary ts.authorization) = some (document.toUTF8, authorizationMode)) :
    (install ts.authorization).Ensures host (fun s' => TargetFiles.OnTheWay old p.files (ts.files (tree s')))
      (fun _ s' => Installed ts p (tree s'))
      (fun _ s' => TargetFiles.Halfway old p.files (ts.files (tree s'))) s := by
  refine ensures_install hb hf (fun s' h => ?_) fun _ s' h => ?_
  · have hi : Installed ts p (tree s') := by
      refine ⟨?_, ?_, ?_, fun _ => ?_⟩
      · rw [h, if_neg (mt HostPath.Same.symm ha.rules_authorization),
          if_neg (mt HostPath.Same.symm ha.rules_temporaryAuthorization), hold.rules]
      · rw [h, if_pos (HostPath.Same.refl _), hd]
        rfl
      · rw [h, if_neg ha.authorization_temporaryRules, if_neg (mt HostPath.Same.symm ha.temporary_temporary),
          hold.temporaryRules]
      · rw [h, if_neg ha.authorization_temporary, if_pos (HostPath.Same.refl _)]
    exact ⟨Or.inr hi.files_eq, hi⟩
  · have hfiles : ts.files (tree s') = ⟨p.files.rules, old.authorization⟩ := by
      rw [← hold.files_eq]
      exact Targets.files_congr (Tree.file?_of_lookup (h _)) (Tree.file?_of_lookup (h _))
    exact ⟨Or.inl (Or.inr hfiles), Or.inr hfiles⟩

/-- Removing the old document after the rules were installed, for a policy without one. -/
theorem ensures_remove_authorization (hb : Backed host tree) (hr : ReportsAbsence host tree) (ha : ts.Apart)
    {p : CompiledPolicy} {old : TargetFiles} (hd : p.authorization.render? = none)
    (hold : RulesInstalled ts p old (tree s)) :
    (removeIfExists ts.authorization).Ensures host
      (fun s' => TargetFiles.OnTheWay old p.files (ts.files (tree s')))
      (fun _ s' => Installed ts p (tree s'))
      (fun _ s' => TargetFiles.Halfway old p.files (ts.files (tree s'))) s := by
  refine ensures_removeIfExists hb hr (fun s' h => ?_) fun _ s' h => ?_
  · have hi : Installed ts p (tree s') := by
      refine ⟨?_, ?_, ?_, fun h' => ?_⟩
      · rw [h, if_neg (mt HostPath.Same.symm ha.rules_authorization), hold.rules]
      · rw [h, if_pos (HostPath.Same.refl _), hd]
        rfl
      · rw [h, if_neg ha.authorization_temporaryRules, hold.temporaryRules]
      · rw [hd] at h'; cases h'
    exact ⟨Or.inr hi.files_eq, hi⟩
  · have hfiles : ts.files (tree s') = ⟨p.files.rules, old.authorization⟩ := by
      rw [← hold.files_eq]
      exact Targets.files_congr (Tree.file?_of_lookup (h _)) (Tree.file?_of_lookup (h _))
    exact ⟨Or.inl (Or.inr hfiles), Or.inr hfiles⟩

/-- **An installation**: at every point the targets are on the way to the policy's files; it ends with these
installed, or gives up with the old authorization document in its place. -/
theorem ensures_commit (hb : Backed host tree) (hr : ReportsAbsence host tree) (ha : ts.Apart) (p : CompiledPolicy)
    (s : σ) :
    (commit ts p).Ensures host
      (fun s' => TargetFiles.OnTheWay (ts.files (tree s)) p.files (ts.files (tree s')))
      (fun _ s' => Installed ts p (tree s'))
      (fun _ s' => TargetFiles.Halfway (ts.files (tree s)) p.files (ts.files (tree s'))) s := by
  have hold : ∀ s', (∀ q, ¬ (temporary ts.rules).Same q → ¬ (temporary ts.authorization).Same q →
      (tree s').file? q = (tree s).file? q) → ts.files (tree s') = ts.files (tree s) := fun s' h =>
    Targets.files_congr
      (h _ (mt HostPath.Same.symm ha.rules_temporary) (mt HostPath.Same.symm ha.rules_temporaryAuthorization))
      (h _ (mt HostPath.Same.symm ha.authorization_temporaryRules) (mt HostPath.Same.symm ha.authorization_temporary))
  unfold commit
  refine Action.ensures_bind (R := fun _ s₁ =>
      (∀ q, ¬ (temporary ts.rules).Same q → (tree s₁).file? q = (tree s).file? q) ∧
        (tree s₁).file? (temporary ts.rules) = some (p.renderRules.toUTF8, rulesMode))
    (ensures_stage hb (fun s' h => Or.inl (Or.inl (hold s' fun q hq _ => h q hq))) (fun _ h hf => ⟨h, hf⟩)
      fun _ s' h => Or.inl (hold s' fun q _ _ => h q)) fun _ s₁ h₁ => ?_
  obtain ⟨hs₁, hf₁⟩ := h₁
  cases hd : p.authorization.render? with
  | some document =>
    -- the document is staged, then both files are installed, the rules first
    refine Action.ensures_bind (R := fun _ s₂ => ts.files (tree s₂) = ts.files (tree s) ∧
        (tree s₂).file? (temporary ts.rules) = some (p.renderRules.toUTF8, rulesMode) ∧
        (tree s₂).file? (temporary ts.authorization) = some (document.toUTF8, authorizationMode))
      (ensures_stageAuthorization hb
        (fun s' h => Or.inl (Or.inl (hold s' fun q hq hq' => (h q hq hq').trans (hs₁ q hq))))
        (fun s' h hf => ⟨hold s' fun q hq hq' => (h q hq').trans (hs₁ q hq),
          (h _ (mt HostPath.Same.symm ha.temporary_temporary)).trans hf₁, hf⟩)
        fun _ s' h => Or.inl (hold s' fun q hq _ => (h q hq).trans (hs₁ q hq))) fun _ s₂ h₂ => ?_
    obtain ⟨hs₂, hf₂, hf₂'⟩ := h₂
    refine Action.ensures_bind (ensures_install_rules hb ha hs₂ hf₂) fun _ s₃ h₃ => ?_
    refine Action.ensures_bind (R := fun _ s₄ => s₄ = s₃) (Action.ensures_emit rfl) fun _ s₄ h₄ => ?_
    subst h₄
    refine Action.ensures_bind (ensures_install_authorization hb ha hd h₃.1 (h₃.2.trans hf₂')) fun _ s₅ h₅ => ?_
    exact Action.ensures_bind (Action.ensures_emit h₅) fun _ _ h => Action.ensures_pure h
  | none =>
    have hs : ts.files (tree s₁) = ts.files (tree s) := hold s₁ fun q hq _ => hs₁ q hq
    refine Action.ensures_bind (ensures_install_rules hb ha hs hf₁) fun _ s₂ h₂ => ?_
    refine Action.ensures_bind (R := fun _ s₃ => s₃ = s₂) (Action.ensures_emit rfl) fun _ s₃ h₃ => ?_
    subst h₃
    exact Action.ensures_bind (ensures_remove_authorization hb hr ha hd h₂.1) fun _ _ h => Action.ensures_pure h

/-- **A removal of both files**: first the rules go, then the authorization document. -/
theorem ensures_removeAll (hb : Backed host tree) (hr : ReportsAbsence host tree) (ha : ts.Apart) (s : σ) :
    (removeAll ts).Ensures host
      (fun s' => TargetFiles.OnTheWay (ts.files (tree s)) ⟨none, none⟩ (ts.files (tree s')))
      (fun _ s' => (tree s').lookup ts.rules = none ∧ (tree s').lookup ts.authorization = none)
      (fun _ s' => TargetFiles.Halfway (ts.files (tree s)) ⟨none, none⟩ (ts.files (tree s'))) s := by
  unfold removeAll
  refine Action.ensures_bind (R := fun _ s₁ => (tree s₁).lookup ts.rules = none ∧
      ts.files (tree s₁) = ⟨none, (ts.files (tree s)).authorization⟩)
    (ensures_removeIfExists hb hr (fun s₁ h => ?_) fun _ s₁ h => ?_) fun _ s₁ h₁ => ?_
  · have hnone : (tree s₁).lookup ts.rules = none := by rw [h, if_pos (HostPath.Same.refl _)]
    have hfiles : ts.files (tree s₁) = ⟨none, (ts.files (tree s)).authorization⟩ := by
      unfold Targets.files
      rw [Tree.file?_of_none hnone, Tree.file?_of_lookup ((h _).trans (if_neg ha.rules_authorization))]
    exact ⟨Or.inl (Or.inr hfiles), hnone, hfiles⟩
  · have hfiles : ts.files (tree s₁) = ts.files (tree s) :=
      Targets.files_congr (Tree.file?_of_lookup (h _)) (Tree.file?_of_lookup (h _))
    exact ⟨Or.inl (Or.inl hfiles), Or.inl hfiles⟩
  obtain ⟨hnone₁, hfiles₁⟩ := h₁
  refine ensures_removeIfExists hb hr (fun s₂ h => ?_) fun _ s₂ h => ?_
  · have hnone : (tree s₂).lookup ts.authorization = none := by rw [h, if_pos (HostPath.Same.refl _)]
    have hnone' : (tree s₂).lookup ts.rules = none := by
      rw [h, if_neg (mt HostPath.Same.symm ha.rules_authorization), hnone₁]
    have hfiles : ts.files (tree s₂) = ⟨none, none⟩ := by
      unfold Targets.files
      rw [Tree.file?_of_none hnone, Tree.file?_of_none hnone']
    exact ⟨Or.inr hfiles, hnone', hnone⟩
  · have hfiles : ts.files (tree s₂) = ⟨none, (ts.files (tree s)).authorization⟩ := by
      rw [← hfiles₁]
      exact Targets.files_congr (Tree.file?_of_lookup (h _)) (Tree.file?_of_lookup (h _))
    exact ⟨Or.inl (Or.inr hfiles), Or.inr hfiles⟩

end Installation

end AdminPolicy
