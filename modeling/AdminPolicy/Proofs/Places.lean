import AdminPolicy.Proofs.Enforcement
import AdminPolicy.Proofs.Layering

/-!
# The places of an enforcer and the fragments of others

A target and its temporary place lie in one directory, down to the spelling of it (`parent?_temporary_rules`,
`parent?_temporary_authorization`), so a renaming never leaves a directory. Where the rules lie in the directory of
fragments, too, all four places are among its children. Yet whoever reads the fragments of others looks at none of
them (`not_isOwnPlace_of_mem_systemAdmins`): the name of the authorization document is the one that is left out, and the
other three are no names of fragments. All of this holds of any two directories that an enforcer is made for
(`places_of`).
-/

namespace AdminPolicy.Enforcer

open Installation Fragments

variable {σ : Type} {host : Host σ} {s : σ} (e : Enforcer)

/-! ## One directory for a target and its temporary place -/

theorem parent?_temporary_rules : (temporary e.targets.rules).parent? = e.targets.rules.parent? := by
  obtain ⟨q, -, hq⟩ := HostPath.exists_parent?_join e.sudoersDirectory
  exact (congrArg HostPath.parent? e.temporary_rules).trans
    ((hq isName_temporary_baseFileName).trans (hq isName_baseFileName).symm)

theorem parent?_temporary_authorization :
    (temporary e.targets.authorization).parent? = e.targets.authorization.parent? := by
  obtain ⟨q, -, hq⟩ := HostPath.exists_parent?_join e.fragmentDirectory
  exact (congrArg HostPath.parent? e.temporary_authorization).trans
    ((hq isName_temporary_ownFragmentName).trans (hq isName_ownFragmentName).symm)

/-! ## Reading the fragments of others -/

/-- The reading of a directory lists it and looks at the fragments among its children, less our own. -/
theorem path_of_mem_systemAdmins {dir : HostPath} {st : Step σ}
    (h : st ∈ ((systemAdmins dir).program.run host s).steps) :
    st.call.path = dir ∨
      ∃ (names : List String) (n : String), (host (.listDir dir) s).1 = .ok names ∧ n ∈ names ∧ isFragmentName n = true ∧
      n ≠ ownFragmentName ∧ st.call.path = dir.join n := by
  rcases List.mem_cons.mp h with rfl | h
  · exact Or.inl rfl
  · cases hlist : (host (.listDir dir) s).1 with
    | error err =>
      simp only [hlist] at h
      split at h <;> exact absurd h List.not_mem_nil
    | ok names =>
      simp only [hlist] at h
      have honly : (layerAll dir "" (layers (fun n => n ≠ ownFragmentName) names)).program.Only fun c =>
          ∃ n ∈ layers (fun n => n ≠ ownFragmentName) names, c.path = dir.join n :=
        only_layerAll "" fun n hn => ⟨⟨n, hn, rfl⟩, ⟨n, hn, rfl⟩⟩
      obtain ⟨n, hn, hpath⟩ := honly.mem_steps _ st h
      obtain ⟨hmem, hfragment, hother⟩ := mem_layers.mp hn
      exact Or.inr ⟨names, n, rfl, hmem, hfragment, of_decide_eq_true hother, hpath⟩

/-- In memory, a directory lists names. -/
theorem isName_of_mem_host {t : Memory.Tree} {dir : HostPath} {names : List String}
    (h : (Memory.host (.listDir dir) t).1 = .ok names) : ∀ n ∈ names, HostPath.IsName n := by
  have h : Memory.listDir dir t = .ok names := h
  exact fun _ hn => ((mem_listDir h).mp hn).1

/-- **No place of an enforcer is read as a fragment of others**, on any host where a directory lists names. -/
theorem not_isOwnPlace_of_mem_systemAdmins {dir : HostPath} (hdir : ¬ e.targets.IsOwnPlace dir)
    (hnames : ∀ names : List String, (host (.listDir dir) s).1 = .ok names → ∀ n ∈ names, HostPath.IsName n)
    {st : Step σ} (h : st ∈ ((systemAdmins dir).program.run host s).steps) : ¬ e.targets.IsOwnPlace st.call.path := by
  rcases path_of_mem_systemAdmins h with hpath | ⟨names, n, hlist, hn, hfragment, hother, hpath⟩
  · rwa [hpath]
  · rw [hpath]
    exact e.not_isOwnPlace_fragment dir (hnames names hlist n hn) hfragment hother

/-! ## Any two directories -/

/-- A target lies in its directory. -/
theorem exists_parent?_targets : (∃ q, e.targets.rules.parent? = some q ∧ q.Same e.sudoersDirectory) ∧
    ∃ q, e.targets.authorization.parent? = some q ∧ q.Same e.fragmentDirectory :=
  ⟨HostPath.exists_parent?_of_same_join isName_baseFileName (HostPath.Same.refl _),
    HostPath.exists_parent?_of_same_join isName_ownFragmentName (HostPath.Same.refl _)⟩

/-- The authorization document has the one name that is left out of the fragments. -/
theorem mem_layers_iff_ne_authorization {names : List String} {n : String} :
    n ∈ layers (fun n => n ≠ ownFragmentName) names ↔
      n ∈ names ∧ isFragmentName n = true ∧ e.targets.authorization.fileName? ≠ some n := by
  have hname : e.targets.authorization.fileName? = some ownFragmentName :=
    HostPath.fileName?_join _ isName_ownFragmentName
  rw [mem_layers, hname]
  refine and_congr_right fun _ => and_congr_right fun _ => ?_
  rw [decide_eq_true_iff, ne_eq, ne_eq, Option.some.injEq, eq_comm]

/-- The other three places have names that are none of fragments. -/
theorem exists_fileName?_not_isFragmentName {p : HostPath}
    (h : p ∈ [e.targets.rules, temporary e.targets.rules, temporary e.targets.authorization]) :
    ∃ n, p.fileName? = some n ∧ isFragmentName n = false := by
  simp only [List.mem_cons, List.not_mem_nil, or_false] at h
  rcases h with rfl | rfl | rfl
  · exact ⟨_, HostPath.fileName?_join _ isName_baseFileName, by decide⟩
  · rw [temporary_rules]
    exact ⟨_, HostPath.fileName?_join _ isName_temporary_baseFileName, by decide⟩
  · rw [temporary_authorization]
    exact ⟨_, HostPath.fileName?_join _ isName_temporary_ownFragmentName, by decide⟩

/-- **The places of the generated files**, whatever two directories an enforcer is made for. The two targets and their
temporary places are four places. A temporary place lies where its target lies, the rules in the sudoers directory and
the authorization document in that of the fragments. The document has the one name that is left out of the fragments
there, and the other three places have no names of fragments; so reading the fragments of others, on any host where a
directory lists names, looks at none of the four. -/
theorem places_of (sudoers polkit : HostPath) :
    let e := Enforcer.of sudoers polkit
    let ts := e.targets
    ts.Apart ∧
    ((temporary ts.rules).parent? = ts.rules.parent? ∧
      (temporary ts.authorization).parent? = ts.authorization.parent?) ∧
    ((∃ q, ts.rules.parent? = some q ∧ q.Same e.sudoersDirectory) ∧
      ∃ q, ts.authorization.parent? = some q ∧ q.Same e.fragmentDirectory) ∧
    (∀ (names : List String) (n : String), n ∈ layers (fun n => n ≠ ownFragmentName) names ↔
      n ∈ names ∧ isFragmentName n = true ∧ ts.authorization.fileName? ≠ some n) ∧
    (∀ p ∈ [ts.rules, temporary ts.rules, temporary ts.authorization],
      ∃ n, p.fileName? = some n ∧ isFragmentName n = false) ∧
    ∀ {σ : Type} (host : Host σ) (s : σ),
      (∀ names : List String, (host (.listDir e.fragmentDirectory) s).1 = .ok names →
        ∀ n ∈ names, HostPath.IsName n) →
      ∀ st ∈ ((systemAdmins e.fragmentDirectory).program.run host s).steps, ¬ ts.IsOwnPlace st.call.path := by
  intro e ts
  refine ⟨e.apart_targets, ⟨e.parent?_temporary_rules, e.parent?_temporary_authorization⟩, e.exists_parent?_targets,
    fun _ _ => e.mem_layers_iff_ne_authorization, fun _ => e.exists_fileName?_not_isFragmentName, ?_⟩
  intro σ host s hnames st hst
  exact e.not_isOwnPlace_of_mem_systemAdmins (e.not_isOwnPlace_fragmentDirectory _) hnames hst

/-- A directory of fragments in which the rules lie, too, after a call that was interrupted. -/
def sharedTree : Memory.Tree :=
  let file : Memory.Node := .file "[Configuration]\n".toUTF8 0o600
  [(⟨"/p/localauthority.conf.d"⟩, .directory 0o755), (⟨"/p/localauthority.conf.d/50-site.conf"⟩, file)] ++
    reservedNames.map fun n => (⟨"/p/localauthority.conf.d/" ++ n⟩, file)

/-- All four places are listed with the fragments, and none is looked at. -/
theorem places_of_sharedTree :
    let e := Enforcer.of ⟨"/p//localauthority.conf.d/."⟩ ⟨"/p/"⟩
    e.sudoersDirectory.Same e.fragmentDirectory ∧
      Memory.listDir e.fragmentDirectory sharedTree = .ok ("50-site.conf" :: reservedNames) ∧
      (∃ n, (temporary e.targets.rules).fileName? = some n ∧ isFragmentName n = false) ∧
      ∀ st ∈ ((systemAdmins e.fragmentDirectory).program.run Memory.host sharedTree).steps,
        ¬ e.targets.IsOwnPlace st.call.path := by
  intro e
  obtain ⟨-, -, -, -, hnames, hread⟩ := places_of ⟨"/p//localauthority.conf.d/."⟩ ⟨"/p/"⟩
  refine ⟨by decide +kernel, by decide +kernel, hnames _ (List.mem_cons_of_mem _ List.mem_cons_self),
    hread Memory.host sharedTree fun names hlist => isName_of_mem_host hlist⟩

end AdminPolicy.Enforcer
