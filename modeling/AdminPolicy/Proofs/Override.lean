import AdminPolicy.Proofs.History
import AdminPolicy.Proofs.Naming

/-!
# What an application comes to among all fragments

The generated document is one fragment among others, and the last fragment that sets the administrators counts. After
a success the fragments of the directory, the generated one included, come to what the document names, unless a
fragment of others under a later name sets the administrators (`apply_effective`). The reserved name keeps no other
name behind it (`not_override`). Without a document they come to what others have set.
-/

namespace AdminPolicy

open Memory Text KeyFile

namespace Fragments

variable {t : Tree} {dir : HostPath} {keep : String → Bool}

/-! ## What is set -/

/-- The value that a name sets, if it can be read and sets one. -/
def set? (t : Tree) (dir : HostPath) (name : String) : Option String := (setting t dir name).toOption.join

theorem set?_eq_some {n w : String} : set? t dir n = some w ↔ setting t dir n = .ok (some w) := by
  unfold set?
  cases setting t dir n with
  | error e => simp [Except.toOption]
  | ok o => simp [Except.toOption]

theorem setting_of_set?_eq_none {n : String} {o : Option String} (hs : setting t dir n = .ok o)
    (h : set? t dir n = none) : setting t dir n = .ok none := by
  unfold set? at h
  rw [hs] at h ⊢
  exact congrArg _ h

end Fragments

/-- The last of the values of a list comes from an element behind which there are none. -/
theorem exists_of_getLast?_filterMap {α β : Type} {g : α → Option β} {l : List α} {w : β}
    (h : (l.filterMap g).getLast? = some w) :
    ∃ l₁ n l₂, l = l₁ ++ n :: l₂ ∧ g n = some w ∧ ∀ m ∈ l₂, g m = none := by
  induction l with
  | nil => cases h
  | cons a l ih =>
    by_cases hl : l.filterMap g = []
    · have hnone : ∀ m ∈ l, g m = none := List.filterMap_eq_nil_iff.mp hl
      cases ha : g a with
      | none => rw [List.filterMap_cons_none ha, hl] at h; cases h
      | some b =>
        rw [List.filterMap_cons_some ha, hl] at h
        exact ⟨[], a, l, rfl, ha.trans h, hnone⟩
    · have hlast : (l.filterMap g).getLast? = some w := by
        cases ha : g a with
        | none => rwa [List.filterMap_cons_none ha] at h
        | some b => rwa [List.filterMap_cons_some ha, List.getLast?_cons_of_ne_nil hl] at h
      obtain ⟨l₁, n, l₂, rfl, hn, hnone⟩ := ih hlast
      exact ⟨a :: l₁, n, l₂, rfl, hn, hnone⟩

namespace Enforcer

open Fragments

/-! ## Names behind the generated one -/

/-- What the fragments of a tree come to, the generated one included. -/
def effective (e : Enforcer) (t : Tree) : Except PolicyError String :=
  ((layeredAdmins (fun _ => true) e.fragmentDirectory).program.run Memory.host t).result

/-- The value of the last fragment that sets one under a name behind that of the generated fragment. -/
def overriding? (e : Enforcer) (t : Tree) : Option String :=
  match listDir e.fragmentDirectory t with
  | .ok names =>
    ((layers (fun name => decide (ownFragmentName < name)) names).filterMap (set? t e.fragmentDirectory)).getLast?
  | .error _ => none

variable {e : Enforcer} {t : Tree}

theorem set?_of_overriding?_eq_none {names : List String} (hl : listDir e.fragmentDirectory t = .ok names)
    (h : e.overriding? t = none) {n : String} (hn : n ∈ names) (hf : isFragmentName n = true)
    (hlater : ownFragmentName < n) : set? t e.fragmentDirectory n = none := by
  unfold overriding? at h
  simp only [hl, List.getLast?_eq_none_iff, List.filterMap_eq_nil_iff] at h
  exact h n (mem_layers.mpr ⟨hn, hf, decide_eq_true hlater⟩)

theorem exists_of_overriding?_eq_some {w : String} (h : e.overriding? t = some w) :
    ∃ names, listDir e.fragmentDirectory t = .ok names ∧ ∃ n ∈ names, isFragmentName n = true ∧ ownFragmentName < n ∧
      set? t e.fragmentDirectory n = some w ∧
      ∀ m ∈ names, isFragmentName m = true → n < m → set? t e.fragmentDirectory m = none := by
  unfold overriding? at h
  split at h
  · rename_i names hl
    obtain ⟨l₁, n, l₂, heq, hn, hnone⟩ := exists_of_getLast?_filterMap h
    obtain ⟨hmem, hf, hlater⟩ := mem_layers.mp (heq ▸ List.mem_append_right l₁ List.mem_cons_self)
    refine ⟨names, hl, n, hmem, hf, of_decide_eq_true hlater, hn, fun m hm hfm hnm => ?_⟩
    -- what sorts behind the name stands behind it
    have hm : m ∈ l₁ ++ n :: l₂ := heq ▸ mem_layers.mpr
      ⟨hm, hfm, decide_eq_true (String.lt_trans (of_decide_eq_true hlater) hnm)⟩
    have hsorted := List.pairwise_append.mp (heq ▸ pairwise_layers names)
    rcases List.mem_append.mp hm with hm | hm
    · exact absurd hnm (hsorted.2.2 m hm n List.mem_cons_self)
    · rcases List.mem_cons.mp hm with rfl | hm
      · exact absurd hnm (String.lt_irrefl _)
      · exact hnone m hm
  · cases h

/-! ## After an application -/

/-- Where what others have set can be read, each of their fragments can. -/
theorem exists_setting_of_foreign {names : List String} (hl : listDir e.fragmentDirectory t = .ok names) {v : String}
    (hv : e.foreign t = .ok v) {n : String} (hn : n ∈ names) (hf : isFragmentName n = true)
    (hne : n ≠ ownFragmentName) : ∃ o, setting t e.fragmentDirectory n = .ok o := by
  have hlayered : layered (setting t e.fragmentDirectory) "" (layers (fun name => name ≠ ownFragmentName) names) =
      .ok v := by
    rw [← run_layeredAdmins_of_listDir hl]
    exact hv
  exact ok_of_layered hlayered n (mem_layers.mpr ⟨hn, hf, decide_eq_true hne⟩)

/-- With the generated fragment readable, all fragments come to what a fragment sets behind which none sets anything. -/
theorem effective_of_last {names : List String} (hl : listDir e.fragmentDirectory t = .ok names) {v : String}
    (hv : e.foreign t = .ok v) {o : Option String} (hown : setting t e.fragmentDirectory ownFragmentName = .ok o)
    {n w : String} (hn : n ∈ names) (hf : isFragmentName n = true)
    (hw : setting t e.fragmentDirectory n = .ok (some w))
    (hlast : ∀ m ∈ names, isFragmentName m = true → n < m → setting t e.fragmentDirectory m = .ok none) :
    e.effective t = .ok w := by
  unfold effective
  rw [run_layeredAdmins_of_listDir hl]
  refine layered_eq_of_last (pairwise_layers _) (fun m hm => ?_) (mem_layers.mpr ⟨hn, hf, rfl⟩) hw
    (fun m hm => hlast m (mem_layers.mp hm).1 (mem_layers.mp hm).2.1) ""
  by_cases hmo : m = ownFragmentName
  · exact ⟨o, hmo ▸ hown⟩
  · exact exists_setting_of_foreign hl hv (mem_layers.mp hm).1 (mem_layers.mp hm).2.1 hmo

/-- Without the generated fragment, all fragments are those of others. -/
theorem effective_of_lookup_eq_none (h : t.lookup e.targets.authorization = none) : e.effective t = e.foreign t := by
  unfold effective foreign systemAdmins
  cases hl : t.lookup e.fragmentDirectory with
  | none => rw [run_layeredAdmins_of_none hl, run_layeredAdmins_of_none hl]
  | some node =>
    cases node with
    | file c m => rw [run_layeredAdmins_of_file hl, run_layeredAdmins_of_file hl]
    | directory m =>
      obtain ⟨names, hnames⟩ := listDir_of_directory hl
      rw [run_layeredAdmins_of_listDir hnames, run_layeredAdmins_of_listDir hnames]
      refine layered_congr (pairwise_layers _) (pairwise_layers _) (fun n r _ => ?_) ""
      have hne : n ∈ names → n ≠ ownFragmentName := by
        rintro hn rfl
        exact ((mem_listDir hnames).mp hn).2 h
      simp only [mem_layers, decide_eq_true_eq]
      exact ⟨fun ⟨⟨hn, hf, _⟩, hr⟩ => ⟨⟨hn, hf, hne hn⟩, hr⟩, fun ⟨⟨hn, hf, _⟩, hr⟩ => ⟨⟨hn, hf, trivial⟩, hr⟩⟩

/-- A fragment of others that sets nothing, or is not there, sets nothing after the tree grew. -/
theorem setting_eq_none_of_grewOutside (sudoers polkit : HostPath) {t' : Tree} (ht : t.IsTree)
    (hg : t.GrewOutside (Enforcer.of sudoers polkit).targets t') {n : String} (hn : HostPath.IsName n)
    (hf : isFragmentName n = true) (hne : n ≠ ownFragmentName)
    (hread : ∃ o, setting t' (Enforcer.of sudoers polkit).fragmentDirectory n = .ok o)
    (hset : ∀ names, listDir (Enforcer.of sudoers polkit).fragmentDirectory t = .ok names → n ∈ names →
      set? t (Enforcer.of sudoers polkit).fragmentDirectory n = none) :
    setting t' (Enforcer.of sudoers polkit).fragmentDirectory n = .ok none := by
  rcases setting_of_grewOutside hg (not_isOwnPlace_fragment _ _ hn hf hne) with ⟨_, hsame⟩ | ⟨_, hnone⟩
  · rw [hsame] at hread ⊢
    obtain ⟨o, ho⟩ := hread
    have hfilled : t.lookup ((Enforcer.of sudoers polkit).fragmentDirectory.join n) ≠ none := fun hl => by
      rw [setting_of_none hl] at ho
      cases ho
    obtain ⟨m, hm⟩ := ht.hasDirectory_of_lookup_join (components_fragmentDirectory sudoers polkit) hn hfilled
    obtain ⟨names, hnames⟩ := listDir_of_directory hm
    exact setting_of_set?_eq_none ho (hset names hnames ((mem_listDir hnames).mpr ⟨hn, hfilled⟩))
  · exact hnone

/-- All fragments after a document was installed. -/
theorem effective_of_document (sudoers polkit : HostPath) {t' : Tree} (ht : t.IsTree) (ht' : t'.IsTree)
    (hg : t.GrewOutside (Enforcer.of sudoers polkit).targets t') {v ids : String}
    (hv : (Enforcer.of sudoers polkit).foreign t' = .ok v)
    (hdocument : t'.lookup (Enforcer.of sudoers polkit).targets.authorization ≠ none)
    (hids : setting t' (Enforcer.of sudoers polkit).fragmentDirectory ownFragmentName = .ok (some ids)) :
    (Enforcer.of sudoers polkit).effective t' = .ok (((Enforcer.of sudoers polkit).overriding? t).getD ids) := by
  obtain ⟨m, hm⟩ := ht'.hasDirectory_of_lookup_join (components_fragmentDirectory sudoers polkit)
    isName_ownFragmentName hdocument
  obtain ⟨names', hnames'⟩ := listDir_of_directory hm
  -- what sorts behind a name that sorts behind the generated one, or behind that one itself, is of others
  have hnone : ∀ {n : String}, n ∈ names' → isFragmentName n = true → ownFragmentName < n →
      (∀ names, listDir (Enforcer.of sudoers polkit).fragmentDirectory t = .ok names → n ∈ names →
        set? t (Enforcer.of sudoers polkit).fragmentDirectory n = none) →
      setting t' (Enforcer.of sudoers polkit).fragmentDirectory n = .ok none := by
    intro n hn hf hlater hset
    have hne : n ≠ ownFragmentName := fun h => String.lt_irrefl _ (h ▸ hlater)
    exact setting_eq_none_of_grewOutside sudoers polkit ht hg ((mem_listDir hnames').mp hn).1 hf hne
      (exists_setting_of_foreign hnames' hv hn hf hne) hset
  cases hover : (Enforcer.of sudoers polkit).overriding? t with
  | none =>
    refine effective_of_last hnames' hv hids ((mem_listDir hnames').mpr ⟨isName_ownFragmentName, hdocument⟩)
      (by decide) hids fun k hk hf hlater => hnone hk hf hlater fun names hnames hn => ?_
    exact set?_of_overriding?_eq_none hnames hover hn hf hlater
  | some w =>
    obtain ⟨names, hnames, n, hn, hf, hlater, hw, hlast⟩ := exists_of_overriding?_eq_some hover
    obtain ⟨hname, hfilled⟩ := (mem_listDir hnames).mp hn
    have hne : n ≠ ownFragmentName := fun h => String.lt_irrefl _ (h ▸ hlater)
    rcases setting_of_grewOutside hg (not_isOwnPlace_fragment _ _ hname hf hne) with ⟨hsame, hset⟩ | ⟨hl, _⟩
    · refine effective_of_last hnames' hv hids ((mem_listDir hnames').mpr ⟨hname, hsame ▸ hfilled⟩) hf
        (hset.trans (set?_eq_some.mp hw)) fun k hk hfk hnk => hnone hk hfk (String.lt_trans hlater hnk) ?_
      intro names₁ hnames₁ hk₁
      obtain rfl : names = names₁ := Except.ok.inj (hnames.symm.trans hnames₁)
      exact hlast k hk₁ hfk hnk
    · exact absurd hl hfilled

theorem effective_applied (sudoers polkit : HostPath) (object : String) (entries : List Entry) (ht : t.IsTree)
    (hne : entries ≠ []) (hok : ((Enforcer.of sudoers polkit).applied object entries t).result = .ok ()) {v : String}
    (hv : (Enforcer.of sudoers polkit).foreign t = .ok v) :
    (Enforcer.of sudoers polkit).effective ((Enforcer.of sudoers polkit).applied object entries t).final = .ok
      (match (AdminPolicy.compile entries v).authorization.adminIdentities? with
      | none => v
      | some ids => ((Enforcer.of sudoers polkit).overriding? t).getD ids) := by
  obtain ⟨v', hv', hp⟩ := (Enforcer.of sudoers polkit).installed_of_applied object t hok hne
  obtain rfl : v = v' := Except.ok.inj (hv.symm.trans hv')
  have hg := (Enforcer.of sudoers polkit).grewOutside_applied object entries t
  have ht' : ((Enforcer.of sudoers polkit).applied object entries t).final.IsTree := ht.run _
  generalize ((Enforcer.of sudoers polkit).applied object entries t).final = t' at hp hg ht' ⊢
  have hv' : (Enforcer.of sudoers polkit).foreign t' = .ok v := (foreign_of_grewOutside sudoers polkit ht hg).trans hv
  cases hids : (AdminPolicy.compile entries v).authorization.adminIdentities? with
  | none =>
    have hnone : t'.lookup (Enforcer.of sudoers polkit).targets.authorization = none := by
      rw [hp.authorization, Authorization.render?, hids]
      rfl
    exact (effective_of_lookup_eq_none hnone).trans hv'
  | some ids =>
    obtain ⟨document, hd⟩ := Authorization.exists_render?_of_adminIdentities? hids
    have hdocument : t'.lookup (Enforcer.of sudoers polkit).targets.authorization =
        some (.file document.toUTF8 Installation.authorizationMode) := by
      rw [hp.authorization, hd]
      rfl
    obtain ⟨file, hfile, hget⟩ := get?_of_render? hd hids
      (isValue_adminIdentities ((ends_layeredAdmins _ _).of_ok hv) hids)
    refine effective_of_document sudoers polkit ht ht' hg hv' (by rw [hdocument]; simp) ?_
    rw [← hget]
    exact setting_of_file hdocument hfile

/-- **What all fragments come to after a success.** Without a document it is what others have set. With a document it
is what the document names, unless fragments of others under names behind the generated one set something: then it is
what the last of these sets. -/
theorem apply_effective (sudoers polkit : HostPath) (object : String) (entries : List Entry) (t : Tree)
    (ht : t.IsTree) (hne : entries ≠ [])
    (hok : ((Enforcer.of sudoers polkit).applied object entries t).result = .ok ()) :
    let e := Enforcer.of sudoers polkit
    ∃ v, e.foreign t = .ok v ∧ e.effective (e.applied object entries t).final = .ok
      (match (AdminPolicy.compile entries v).authorization.adminIdentities? with
      | none => v
      | some ids => (e.overriding? t).getD ids) := by
  intro e
  obtain ⟨v, hv, _⟩ := e.installed_of_applied object t hok hne
  exact ⟨v, hv, effective_applied sudoers polkit object entries ht hne hok hv⟩

theorem foreign_usedTree : (Enforcer.of ⟨"s"⟩ ⟨"p"⟩).foreign usedTree = .ok "unix-user:alice" := by decide +kernel

/-- On the used host a grant is what all fragments come to: no name sorts behind the generated one. -/
theorem apply_effective_usedTree :
    let e := Enforcer.of ⟨"s"⟩ ⟨"p"⟩
    let r := e.applied "HOST" [⟨.clientAdmins, "bob", false⟩] usedTree
    usedTree.IsTree ∧ r.result = .ok () ∧ e.effective r.final = .ok "unix-user:alice;unix-user:bob" := by
  have ht : usedTree.IsTree := by decide +kernel
  have hover : (Enforcer.of ⟨"s"⟩ ⟨"p"⟩).overriding? usedTree = none := by decide +kernel
  have hids : (AdminPolicy.compile [⟨.clientAdmins, "bob", false⟩] "unix-user:alice").authorization.adminIdentities? =
      some "unix-user:alice;unix-user:bob" := by decide +kernel
  obtain ⟨v, hv, h⟩ := apply_effective _ _ _ _ _ ht (by decide) applied_usedTree
  obtain rfl : "unix-user:alice" = v := Except.ok.inj (foreign_usedTree.symm.trans hv)
  rw [hids, hover] at h
  exact ⟨ht, applied_usedTree, h⟩

/-! ## The limit of the reserved name -/

/-- A host on which a fragment of others sorts behind the generated one. -/
def lateTree : Tree :=
  [(⟨"p"⟩, .directory 0o755), (⟨"p/localauthority.conf.d"⟩, .directory 0o755),
    (⟨"p/localauthority.conf.d/zz-site.conf"⟩,
      .file "[Configuration]\nAdminIdentities=unix-user:alice\n".toUTF8 0o644)]

theorem applied_lateTree : ((Enforcer.of ⟨"s"⟩ ⟨"p"⟩).applied "HOST" [⟨.allowLocalAdmins, "", true⟩] lateTree).result =
    .ok () := by decide +kernel

/-- A success does not by itself make the document count: local administrators who are revoked stay administrators if
a fragment behind the generated one names them. -/
theorem not_override :
    ¬ ∀ (sudoers polkit : HostPath) (object : String) (entries : List Entry) (t : Tree), t.IsTree → entries ≠ [] →
      ((Enforcer.of sudoers polkit).applied object entries t).result = .ok () →
      ∀ v, (Enforcer.of sudoers polkit).foreign t = .ok v →
        (Enforcer.of sudoers polkit).effective ((Enforcer.of sudoers polkit).applied object entries t).final =
          .ok ((AdminPolicy.compile entries v).authorization.adminIdentities?.getD v) := by
  intro h
  have ht : lateTree.IsTree := by decide +kernel
  have hforeign : (Enforcer.of ⟨"s"⟩ ⟨"p"⟩).foreign lateTree = .ok "unix-user:alice" := by decide +kernel
  have hids : (AdminPolicy.compile [⟨.allowLocalAdmins, "", true⟩] "unix-user:alice").authorization.adminIdentities? =
      some "" := by decide +kernel
  have hover : (Enforcer.of ⟨"s"⟩ ⟨"p"⟩).overriding? lateTree = some "unix-user:alice" := by decide +kernel
  have heffective := effective_applied _ _ _ _ ht (by decide) applied_lateTree hforeign
  have hclaimed := h _ _ _ _ _ ht (by decide) applied_lateTree _ hforeign
  rw [hids, hover] at heffective
  rw [hids, heffective] at hclaimed
  exact absurd (Except.ok.inj hclaimed) (by decide)

end Enforcer

end AdminPolicy
