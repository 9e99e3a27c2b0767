import AdminPolicy.Proofs.Footprint
import AdminPolicy.Proofs.Layering
import AdminPolicy.Proofs.Tree

/-!
# Reading what others set

The administrators that others set are read from the very directory that an application writes in. Its own fragment
is left out by name, staged files are no fragments, and directories set nothing. So on a tree (`Tree.IsTree`) that
grew only outside the places of the application, the reading comes to what it came to before
(`Enforcer.run_systemAdmins_of_grewOutside`), be it a value or an error.
-/

namespace AdminPolicy

open Memory

namespace Fragments

variable {ts : Targets} {t t' : Tree} {dir : HostPath} {keep : String → Bool}

/-- What a fragment of others contributes after the tree grew: the same, or nothing if it is a new directory. -/
theorem setting_of_grewOutside (hg : t.GrewOutside ts t') {n : String} (hn : ¬ ts.IsOwnPlace (dir.join n)) :
    t'.lookup (dir.join n) = t.lookup (dir.join n) ∧ setting t' dir n = setting t dir n ∨
      t.lookup (dir.join n) = none ∧ setting t' dir n = .ok none := by
  rcases hg _ hn with h | ⟨h, m, hm⟩
  · exact Or.inl ⟨h, setting_congr h⟩
  · exact Or.inr ⟨h, setting_of_directory hm⟩

/-- **Growing outside the own places is not read**: layering admitted names that are none of these places comes to
what it came to before. -/
theorem run_layeredAdmins_of_grewOutside (ht : t.IsTree) (hg : t.GrewOutside ts t') (hd : dir.components ≠ [])
    (hdir : ¬ ts.IsOwnPlace dir)
    (hkeep : ∀ n, HostPath.IsName n → isFragmentName n = true → keep n = true → ¬ ts.IsOwnPlace (dir.join n)) :
    ((layeredAdmins keep dir).program.run host t').result = ((layeredAdmins keep dir).program.run host t).result := by
  rcases hg dir hdir with h | ⟨h, m, hm⟩
  · cases hl : t.lookup dir with
    | none => rw [run_layeredAdmins_of_none hl, run_layeredAdmins_of_none (h.trans hl)]
    | some node =>
      cases node with
      | file c m => rw [run_layeredAdmins_of_file hl, run_layeredAdmins_of_file (h.trans hl)]
      | directory m =>
        obtain ⟨names, hnames⟩ := listDir_of_directory hl
        obtain ⟨names', hnames'⟩ := listDir_of_directory (h.trans hl)
        rw [run_layeredAdmins_of_listDir hnames, run_layeredAdmins_of_listDir hnames']
        refine layered_congr (pairwise_layers _) (pairwise_layers _) (fun n r hr => ?_) ""
        rw [mem_layers, mem_layers, mem_listDir hnames, mem_listDir hnames']
        constructor
        · rintro ⟨⟨⟨hn, hl'⟩, hf, hk⟩, hs⟩
          rcases setting_of_grewOutside hg (hkeep n hn hf hk) with ⟨hsame, hset⟩ | ⟨_, hset⟩
          · exact ⟨⟨⟨hn, hsame ▸ hl'⟩, hf, hk⟩, hset ▸ hs⟩
          · exact absurd (hs.symm.trans hset) hr
        · rintro ⟨⟨⟨hn, hl'⟩, hf, hk⟩, hs⟩
          rcases setting_of_grewOutside hg (hkeep n hn hf hk) with ⟨hsame, hset⟩ | ⟨hnone, _⟩
          · exact ⟨⟨⟨hn, by rw [hsame]; exact hl'⟩, hf, hk⟩, hset.trans hs⟩
          · exact absurd hnone hl'
  · -- the directory was made; all that can lie in it are directories
    obtain ⟨names, hnames⟩ := listDir_of_directory hm
    rw [run_layeredAdmins_of_none h, run_layeredAdmins_of_listDir hnames]
    refine layered_eq_self fun n hn => Or.inl ?_
    obtain ⟨hn, hf, hk⟩ := mem_layers.mp hn
    obtain ⟨hn, hl'⟩ := (mem_listDir hnames).mp hn
    rcases setting_of_grewOutside hg (hkeep n hn hf hk) with ⟨hsame, _⟩ | ⟨_, hset⟩
    · obtain ⟨m', hm'⟩ := ht.hasDirectory_of_lookup_join hd hn (hsame ▸ hl')
      rw [h] at hm'
      cases hm'
    · exact hset

end Fragments

namespace Enforcer

variable (sudoers polkit : HostPath)

theorem components_fragmentDirectory : (Enforcer.of sudoers polkit).fragmentDirectory.components ≠ [] := by
  unfold Enforcer.of
  rw [HostPath.components_join _ isName_fragmentDirectoryName]
  simp

/-- What others set is read as before, once the tree grew outside the places of an application. -/
theorem run_systemAdmins_of_grewOutside {t t' : Tree} (ht : t.IsTree)
    (hg : t.GrewOutside (Enforcer.of sudoers polkit).targets t') :
    ((systemAdmins (Enforcer.of sudoers polkit).fragmentDirectory).program.run host t').result =
      ((systemAdmins (Enforcer.of sudoers polkit).fragmentDirectory).program.run host t).result := by
  refine Fragments.run_layeredAdmins_of_grewOutside ht hg (components_fragmentDirectory sudoers polkit)
    (not_isOwnPlace_fragmentDirectory _ _) fun n hn hf hk => ?_
  exact not_isOwnPlace_fragment _ _ hn hf (of_decide_eq_true hk)

end Enforcer

end AdminPolicy
