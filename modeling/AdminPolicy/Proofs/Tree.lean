import AdminPolicy.Proofs.Memory
import AdminPolicy.Proofs.Run

/-!
# File systems are trees

Whatever is stored lies in a directory that is stored, unless nothing is above it or the empty path is (`IsTree`).
Every call keeps this, whether it succeeds or fails (`IsTree.host`), so every run of every program does
(`IsTree.run`).
-/

namespace AdminPolicy.Memory

namespace Tree

/-- Whatever lies in a directory lies in a directory that is there. -/
def IsTree (t : Tree) : Prop :=
  ∀ e ∈ t, ∀ q ∈ e.1.parent?, q.isEmpty = false → (t.lookup q).any Node.isDirectory = true

instance (t : Tree) : Decidable t.IsTree := by
  unfold IsTree
  infer_instance

/-- There is a directory at a place. -/
def HasDirectory (t : Tree) (p : HostPath) : Prop := ∃ m, t.lookup p = some (.directory m)

variable {t t' : Tree} {p q : HostPath}

theorem any_isDirectory_iff : (t.lookup p).any Node.isDirectory = true ↔ t.HasDirectory p := by
  unfold HasDirectory
  cases h : t.lookup p with
  | none => simp
  | some n => cases n <;> simp [Node.isDirectory]

theorem HasDirectory.congr (h : t.HasDirectory p) (hs : p.Same q) : t.HasDirectory q := by
  obtain ⟨m, hm⟩ := h
  exact ⟨m, (lookup_congr t hs).symm.trans hm⟩

/-- The same, said of places: the place above a filled one is a directory. -/
theorem isTree_iff : t.IsTree ↔
    ∀ p q, t.lookup p ≠ none → p.parent? = some q → q.components ≠ [] → t.HasDirectory q := by
  constructor
  · intro ht p q hp hq hne
    obtain ⟨e, he, hs⟩ := lookup_isSome_iff.mp (Option.isSome_iff_ne_none.mpr hp)
    obtain ⟨q', hq', hqq'⟩ := HostPath.exists_parent?_of_same hs.symm hq
    have hempty : q'.isEmpty = false := Bool.eq_false_iff.mpr fun h =>
      hne (Eq.trans hqq' (HostPath.isEmpty_iff.mp h))
    exact (any_isDirectory_iff.mp (ht e he q' hq' hempty)).congr hqq'.symm
  · intro h e he q hq hempty
    refine any_isDirectory_iff.mpr (h e.1 q ?_ hq fun hn => ?_)
    · exact Option.isSome_iff_ne_none.mp (lookup_isSome_iff.mpr ⟨e, he, HostPath.Same.refl _⟩)
    · rw [HostPath.isEmpty_iff.mpr hn] at hempty
      cases hempty

theorem IsTree.congr (ht : t.IsTree) (h : ∀ q, t'.lookup q = t.lookup q) : t'.IsTree := by
  rw [isTree_iff] at ht ⊢
  intro p q hp hq hne
  obtain ⟨m, hm⟩ := ht p q (by rwa [← h p]) hq hne
  exact ⟨m, (h q).trans hm⟩

/-- Where something lies, there is a directory. -/
theorem IsTree.hasDirectory_of_lookup_join (ht : t.IsTree) {dir : HostPath} (hd : dir.components ≠ []) {n : String}
    (hn : HostPath.IsName n) (h : t.lookup (dir.join n) ≠ none) : t.HasDirectory dir := by
  obtain ⟨q, hq, hs⟩ := HostPath.exists_parent?_of_same_join hn (HostPath.Same.refl (dir.join n))
  exact (isTree_iff.mp ht _ q h hq fun e => hd (Eq.trans hs.symm e)).congr hs

/-! ## What keeps a tree -/

/-- Taking away what is no directory. -/
theorem IsTree.erase (ht : t.IsTree) (hp : ¬ t.HasDirectory p) : (t.erase p).IsTree := by
  rw [isTree_iff] at ht ⊢
  intro r q hr hq hne
  rw [lookup_erase] at hr
  have hpr : ¬ p.Same r := fun h => hr (if_pos h)
  rw [if_neg hpr] at hr
  have hdir := ht r q hr hq hne
  have hpq : ¬ p.Same q := fun h => hp (hdir.congr h.symm)
  obtain ⟨m, hm⟩ := hdir
  exact ⟨m, by rw [lookup_erase, if_neg hpq, hm]⟩

/-- Putting a file where there is no directory, into a directory. -/
theorem IsTree.put_file (ht : t.IsTree) (hp : ¬ t.HasDirectory p) {c : ByteArray} {m : Mode}
    (hparent : ∀ q, p.parent? = some q → q.components ≠ [] → t.HasDirectory q) : (t.put p (.file c m)).IsTree := by
  rw [isTree_iff] at ht ⊢
  intro r q hr hq hne
  have hdir : t.HasDirectory q := by
    rw [lookup_put] at hr
    by_cases hpr : p.Same r
    · obtain ⟨q', hq', hs⟩ := HostPath.exists_parent?_of_same hpr.symm hq
      exact (hparent q' hq' fun e => hne (Eq.trans hs e)).congr hs.symm
    · rw [if_neg hpr] at hr
      exact ht r q hr hq hne
  have hpq : ¬ p.Same q := fun h => hp (hdir.congr h.symm)
  obtain ⟨m', hm'⟩ := hdir
  exact ⟨m', by rw [lookup_put, if_neg hpq, hm']⟩

/-- Making a directory and those above it, where no file is in the way. -/
theorem IsTree.putDirectories (ht : t.IsTree) (hp : ∀ a ∈ p.ancestors, t.file? a = none) (m : Mode) :
    (t.putDirectories p m).IsTree := by
  have hold : ∀ {q}, t.HasDirectory q → (t.putDirectories p m).HasDirectory q := by
    rintro q ⟨m', hm'⟩
    exact ⟨m', by rw [lookup_putDirectories, hm', Option.some_or]⟩
  have hnew : ∀ a ∈ p.ancestors, a.components ≠ [] → (t.putDirectories p m).HasDirectory a := by
    intro a ha hne
    have hempty : a.isEmpty = false := Bool.eq_false_iff.mpr fun h => hne (HostPath.isEmpty_iff.mp h)
    have hex : ∃ b ∈ p.ancestors, b.isEmpty = false ∧ b.Same a := ⟨a, ha, hempty, HostPath.Same.refl a⟩
    cases hl : t.lookup a with
    | none => exact ⟨m, by rw [lookup_putDirectories, hl, if_pos hex, Option.none_or]⟩
    | some n =>
      cases n with
      | directory m' => exact hold ⟨m', hl⟩
      | file c m' => exact absurd (hp a ha) (by rw [file?_eq_some_iff.mpr hl]; simp)
  rw [isTree_iff] at ht ⊢
  intro r q hr hq hne
  rw [lookup_putDirectories] at hr
  by_cases hl : t.lookup r = none
  · rw [hl, Option.none_or] at hr
    obtain ⟨a, ha, _, hs⟩ : ∃ a ∈ p.ancestors, a.isEmpty = false ∧ a.Same r :=
      Decidable.byContradiction fun hn => hr (if_neg hn)
    obtain ⟨q', hq', hqq'⟩ := HostPath.exists_parent?_of_same hs.symm hq
    exact (hnew q' (HostPath.parent?_mem_ancestors ha hq') fun e => hne (Eq.trans hqq' e)).congr hqq'.symm
  · exact hold (ht r q hl hq hne)

end Tree

open Memory.Tree

theorem hasDirectory_of_parentFault? {t : Tree} {p q : HostPath} (h : parentFault? t p = none)
    (hq : p.parent? = some q) (hne : q.components ≠ []) : t.HasDirectory q := by
  have hempty : ¬ q.isEmpty = true := fun he => hne (HostPath.isEmpty_iff.mp he)
  unfold parentFault? at h
  rw [hq] at h
  simp only [if_neg hempty] at h
  split at h
  · exact ⟨_, ‹_›⟩
  · cases h
  · cases h

/-- A call that succeeds leaves a tree. -/
theorem Effect.isTree {t t' : Tree} {c : HostCall} (h : Effect t t' c) (ht : t.IsTree) : t'.IsTree := by
  cases c with
  | createDirAll p m =>
    rw [h.2]
    exact ht.putDirectories h.1 m
  | writeFile p c m =>
    obtain ⟨hp, hd, rfl⟩ := h
    exact ht.put_file (fun ⟨m', hm'⟩ => hd m' hm') fun q hq => hasDirectory_of_parentFault? hp hq
  | rename p p' =>
    obtain ⟨hp, hd, c, m, hs, rfl⟩ := h
    have hsource : ¬ t.HasDirectory p := fun ⟨m', hm'⟩ => by rw [hs] at hm'; cases hm'
    have hiff : ∀ q, (t.erase p).HasDirectory q ↔ t.HasDirectory q := by
      intro q
      unfold HasDirectory
      rw [lookup_erase]
      split
      · rename_i hpq
        rw [← lookup_congr t hpq, hs]
        simp
      · rfl
    refine (ht.erase hsource).put_file ?_ fun q hq hne => ?_
    · rw [hiff]
      exact fun ⟨m', hm'⟩ => hd m' hm'
    · exact (hiff q).mpr (hasDirectory_of_parentFault? hp hq hne)
  | removeFile p =>
    obtain ⟨⟨c, m, hs⟩, rfl⟩ := h
    exact ht.erase fun ⟨m', hm'⟩ => by rw [hs] at hm'; cases hm'
  | readText _ | listDir _ | isDir _ =>
    have h : t' = t := h
    rw [h]
    exact ht

/-- **Every call leaves a tree.** -/
theorem Tree.IsTree.host {t : Tree} (ht : t.IsTree) (c : HostCall) : (host c t).2.IsTree := by
  cases h : (Memory.host c t).1 with
  | ok r => exact (effect_of_ok h).isTree ht
  | error e => exact ht.congr (lookup_of_error h)

theorem Tree.IsTree.run {α : Type} {t : Tree} (ht : t.IsTree) (p : Program α) : (p.run Memory.host t).final.IsTree := by
  induction p generalizing t with
  | done _ => exact ht
  | report _ _ ih => exact ih ht
  | request c next ih => exact ih _ (ht.host c)

end AdminPolicy.Memory
