import AdminPolicy.Host.Faults
import AdminPolicy.Host.Memory
import AdminPolicy.Proofs.Path

/-!
# Calls on a tree

What each call does to a file system in memory, said once. A call that fails leaves every place as it was
(`lookup_of_error`); a call that succeeds has the `Effect` of its kind, guards included (`effect_of_ok`).

A host is `Backed` by a tree if each of its calls either fails without reaching the tree or is answered by it. The file
system in memory is backed by itself, and stays so under any injector of faults (`backed_injecting`).
-/

namespace AdminPolicy.Memory

/-! ## Looking up -/

namespace Tree

theorem lookup_congr (t : Tree) {p q : HostPath} (h : p.Same q) : t.lookup p = t.lookup q := by
  have hpq : (fun e : HostPath × Node => decide (e.1.Same p)) = fun e => decide (e.1.Same q) := by
    funext e
    exact decide_eq_decide.mpr ⟨fun he => he.trans h, fun he => he.trans h.symm⟩
  unfold lookup
  rw [hpq]

/-- A place is filled exactly when a node is stored under a path that names it. -/
theorem lookup_isSome_iff {t : Tree} {p : HostPath} : (t.lookup p).isSome ↔ ∃ e ∈ t, e.1.Same p := by
  simp [lookup, List.find?_isSome]

/-- What is found after making directories: what was there, and the missing ones. -/
theorem lookup_putMissing (t : Tree) (p q : HostPath) (m : Mode) :
    (t.putMissing p m).lookup q = (t.lookup q).or (if p.Same q then some (.directory m) else none) := by
  unfold putMissing
  cases h : t.lookup p with
  | some n =>
    by_cases hs : p.Same q
    · rw [← lookup_congr t hs, h]; rfl
    · simp [hs]
  | none =>
    simp only [lookup_put]
    by_cases hs : p.Same q
    · simp [hs, ← lookup_congr t hs, h]
    · simp [hs]

theorem lookup_putDirectories (t : Tree) (p q : HostPath) (m : Mode) :
    (t.putDirectories p m).lookup q =
      (t.lookup q).or (if ∃ a ∈ p.ancestors, a.isEmpty = false ∧ a.Same q then some (.directory m) else none) := by
  unfold putDirectories
  -- induction on the paths above, the tree growing with each
  induction p.ancestors generalizing t with
  | nil => simp
  | cons a as ih =>
    rw [List.foldl_cons, ih]
    by_cases he : a.isEmpty = true
    · simp [he]
    · rw [if_neg he, lookup_putMissing]
      by_cases hs : a.Same q
      · cases t.lookup q <;> simp [he, hs]
      · simp [hs]

/-- Making directories changes no place but fills missing ones with directories. -/
theorem lookup_putDirectories_cases (t : Tree) (p q : HostPath) (m : Mode) :
    (t.putDirectories p m).lookup q = t.lookup q ∨
      t.lookup q = none ∧ (t.putDirectories p m).lookup q = some (.directory m) := by
  rw [lookup_putDirectories]
  cases h : t.lookup q with
  | some n => exact Or.inl rfl
  | none =>
    split
    · exact Or.inr ⟨rfl, rfl⟩
    · exact Or.inl rfl

/-- The contents and the mode of the file at a place, if there is a file. -/
def file? (t : Tree) (p : HostPath) : Option (ByteArray × Mode) :=
  match t.lookup p with
  | some (.file contents mode) => some (contents, mode)
  | _ => none

theorem file?_of_lookup {t t' : Tree} {p q : HostPath} (h : t'.lookup q = t.lookup p) : t'.file? q = t.file? p := by
  unfold file?
  rw [h]

theorem file?_eq_some_iff {t : Tree} {p : HostPath} {c : ByteArray} {m : Mode} :
    t.file? p = some (c, m) ↔ t.lookup p = some (.file c m) := by
  unfold file?
  split
  · rename_i h; simp [h]
  · rename_i h; simpa using h c m

theorem file?_of_none {t : Tree} {p : HostPath} (h : t.lookup p = none) : t.file? p = none := by
  unfold file?
  rw [h]

/-- Making directories changes no file. -/
@[simp] theorem file?_putDirectories (t : Tree) (p q : HostPath) (m : Mode) :
    (t.putDirectories p m).file? q = t.file? q := by
  rcases lookup_putDirectories_cases t p q m with h | ⟨h, h'⟩
  · exact file?_of_lookup h
  · unfold file?
    rw [h, h']

end Tree

/-! ## What calls do -/

/-- What a call that succeeds does to a tree, and what it found there. -/
def Effect (t t' : Tree) : HostCall → Prop
  | .createDirAll p m => (∀ a ∈ p.ancestors, t.file? a = none) ∧ t' = t.putDirectories p m
  | .writeFile p c m =>
    parentFault? t p = none ∧ (∀ m', t.lookup p ≠ some (.directory m')) ∧ t' = t.put p (.file c m)
  | .rename p p' =>
    parentFault? t p' = none ∧ (∀ m', t.lookup p' ≠ some (.directory m')) ∧
      ∃ c m, t.lookup p = some (.file c m) ∧ t' = (t.erase p).put p' (.file c m)
  | .removeFile p => (∃ c m, t.lookup p = some (.file c m)) ∧ t' = t.erase p
  | .readText _ | .listDir _ | .isDir _ => t' = t

theorem effect_of_ok {c : HostCall} {t : Tree} {r : c.Reply} (h : (host c t).1 = .ok r) :
    Effect t (host c t).2 c := by
  cases c with
  | createDirAll p m =>
    simp only [host, createDirAll] at h ⊢
    split at h
    · cases h
    · rename_i hf
      refine ⟨fun a ha => ?_, rfl⟩
      have := List.find?_eq_none.mp hf a ha
      unfold Tree.file?
      cases hl : t.lookup a with
      | none => rfl
      | some n => cases n <;> simp_all [Node.isFile, Node.isDirectory]
  | writeFile p c m =>
    simp only [host, writeFile] at h ⊢
    split at h
    · cases h
    · rename_i hp
      split at h
      · cases h
      · rename_i hd
        exact ⟨hp, hd, rfl⟩
  | rename p p' =>
    simp only [host, rename] at h ⊢
    split at h
    · cases h
    · rename_i hp
      split at h
      · cases h
      · rename_i hd
        split at h
        · rename_i hs
          exact ⟨hp, hd, _, _, hs, rfl⟩
        · cases h
        · cases h
  | removeFile p =>
    simp only [host, removeFile] at h ⊢
    split at h
    · rename_i hs; exact ⟨⟨_, _, hs⟩, rfl⟩
    · cases h
    · cases h
  | readText p => rfl
  | listDir p => rfl
  | isDir p => rfl

/-- A call that fails leaves every place as it was. -/
theorem lookup_of_error {c : HostCall} {t : Tree} {e : IoError} (h : (host c t).1 = .error e) (q : HostPath) :
    (host c t).2.lookup q = t.lookup q := by
  cases c with
  | createDirAll p m =>
    simp only [host, createDirAll] at h ⊢
    split at h
    · rfl
    · cases h
  | writeFile p c m =>
    simp only [host, writeFile] at h ⊢
    split at h
    · rfl
    · split at h
      · rfl
      · cases h
  | rename p p' =>
    simp only [host, rename] at h ⊢
    split at h
    · rfl
    · split at h
      · rfl
      · split at h
        · cases h
        · -- a directory that is not moved is taken out and put back
          rename_i hs
          simp only [Tree.lookup_put, Tree.lookup_erase]
          split
          · rename_i hpq; rw [← Tree.lookup_congr t hpq, hs]
          · rfl
        · rfl
  | removeFile p =>
    simp only [host, removeFile] at h ⊢
    split at h
    · cases h
    · rfl
    · rfl
  | readText p => rfl
  | listDir p => rfl
  | isDir p => rfl

/-! ## Hosts that are backed by a tree -/

variable {σ ι : Type} {host' : Host σ} {tree : σ → Tree}

/-- Each call fails without reaching the tree, or the tree answers it. -/
def Backed (host' : Host σ) (tree : σ → Tree) : Prop :=
  ∀ c s, ((∃ e, (host' c s).1 = .error e) ∧ tree (host' c s).2 = tree s) ∨
    ((host' c s).1 = (host c (tree s)).1 ∧ tree (host' c s).2 = (host c (tree s)).2)

theorem backed_host : Backed host id := fun _ _ => Or.inr ⟨rfl, rfl⟩

/-- Faults of any kind, injected at any calls, leave a host backed. -/
theorem backed_injecting (inject : Faults.Injector ι) : Backed (Faults.injecting inject host) Prod.snd := by
  intro c s
  obtain ⟨i, t⟩ := s
  rcases hc : inject c i with ⟨e?, i'⟩
  cases e? with
  | some e => exact Or.inl ⟨⟨e, by simp only [Faults.injecting, hc]⟩, by simp only [Faults.injecting, hc]⟩
  | none => exact Or.inr ⟨by simp only [Faults.injecting, hc], by simp only [Faults.injecting, hc]⟩

theorem Backed.effect (hb : Backed host' tree) {c : HostCall} {s : σ} {r : c.Reply} (h : (host' c s).1 = .ok r) :
    Effect (tree s) (tree (host' c s).2) c := by
  rcases hb c s with ⟨⟨e, he⟩, _⟩ | ⟨ha, ht⟩
  · rw [h] at he; cases he
  · rw [ht]
    exact effect_of_ok (ha.symm.trans h)

theorem Backed.lookup_of_error (hb : Backed host' tree) {c : HostCall} {s : σ} {e : IoError}
    (h : (host' c s).1 = .error e) (q : HostPath) : (tree (host' c s).2).lookup q = (tree s).lookup q := by
  rcases hb c s with ⟨_, ht⟩ | ⟨ha, ht⟩
  · rw [ht]
  · rw [ht]
    exact Memory.lookup_of_error (ha.symm.trans h) q

theorem Backed.file?_of_error (hb : Backed host' tree) {c : HostCall} {s : σ} {e : IoError}
    (h : (host' c s).1 = .error e) (q : HostPath) : (tree (host' c s).2).file? q = (tree s).file? q :=
  Tree.file?_of_lookup (hb.lookup_of_error h q)

/-- A call that changes nothing, changes nothing. -/
theorem Backed.tree_of_not_isMutation (hb : Backed host' tree) {c : HostCall} (hc : c.isMutation = false) (s : σ) :
    tree (host' c s).2 = tree s := by
  rcases hb c s with ⟨_, ht⟩ | ⟨_, ht⟩
  · exact ht
  · rw [ht]
    cases c with
    | readText _ => rfl
    | listDir _ => rfl
    | isDir _ => rfl
    | _ => cases hc

/-- A removal that reports that nothing was found found nothing. -/
def ReportsAbsence (host' : Host σ) (tree : σ → Tree) : Prop :=
  ∀ p s e, (host' (.removeFile p) s).1 = .error e → e.kind = .notFound → (tree s).lookup p = none

theorem reportsAbsence_host : ReportsAbsence host id := by
  intro p t e h he
  simp only [host, removeFile] at h
  split at h
  · cases h
  · cases h; cases he
  · assumption

end AdminPolicy.Memory
