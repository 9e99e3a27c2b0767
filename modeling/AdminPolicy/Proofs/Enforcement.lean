import AdminPolicy.Proofs.Installation

/-!
# The course of an enforcement

Reading the fragments of others changes nothing (`only_systemAdmins`). So a call works on the tree that it finds, with
the value that its reading returns, and aims for the files that the entries come to with that value (`Enforcer.aim`).
At every point of the call the targets are on the way to these files; it ends with the policy in place, or fails with
the old authorization document there (`ensures_apply`).
-/

namespace AdminPolicy

open Memory

/-! ## Reading -/

namespace Fragments

open Program

/-- A call that only looks. -/
abbrev Looks (c : HostCall) : Prop := c.isMutation = false

theorem only_parse {P : HostCall → Prop} (path : HostPath) (source : String) : (parse path source).program.Only P := by
  unfold parse
  split <;> exact only_done _

/-- Layering examines and reads the fragments of these names. -/
theorem only_layerAll {P : HostCall → Prop} {directory : HostPath} : ∀ {names : List String} (value : String),
    (∀ n ∈ names, P (.isDir (directory.join n)) ∧ P (.readText (directory.join n))) →
      (layerAll directory value names).program.Only P
  | [], _, _ => Action.only_pure _
  | name :: names, value, h => by
    obtain ⟨hstat, hread⟩ := h name List.mem_cons_self
    have hrest : ∀ n ∈ names, P (.isDir (directory.join n)) ∧ P (.readText (directory.join n)) :=
      fun n hn => h n (List.mem_cons_of_mem _ hn)
    unfold layerAll
    refine Action.only_bind (Action.only_attempt hstat) fun isDir => ?_
    refine Action.only_ite (Action.only_bind (Action.only_emit _) fun _ => only_layerAll value hrest) ?_
    refine Action.only_bind (Action.only_attempt hread) fun source => ?_
    exact Action.only_bind (only_parse _ _) fun file => only_layerAll _ hrest

theorem only_layeredAdmins (keep : String → Bool) (directory : HostPath) :
    (layeredAdmins keep directory).program.Only Looks := by
  refine only_request rfl fun a => ?_
  cases a with
  | ok names => exact only_layerAll _ fun _ _ => ⟨rfl, rfl⟩
  | error e =>
    simp only
    split
    · exact only_report (only_done _)
    · exact only_done _

end Fragments

namespace Enforcer

open Fragments Installation

variable {σ : Type} {host : Host σ} {tree : σ → Tree}

theorem only_systemAdmins (directory : HostPath) : (systemAdmins directory).program.Only Looks :=
  only_layeredAdmins _ directory

variable (e : Enforcer)

/-- Compiling leaves the tree alone and returns what the entries come to with the value that was read. -/
theorem ensures_compile (hb : Backed host tree) {I : σ → Prop} (s : σ) (entries : List Entry)
    (hI : ∀ s', tree s' = tree s → I s') :
    (e.compile entries).Ensures host I
      (fun p s' => tree s' = tree s ∧ ∃ v, ((systemAdmins e.fragmentDirectory).program.run host s).result = .ok v ∧
        p = AdminPolicy.compile entries v)
      (fun err s' => tree s' = tree s ∧
        ((systemAdmins e.fragmentDirectory).program.run host s).result = .error err) s := by
  have hread := Action.ensures_of_only (s := s) (I := fun s' => tree s' = tree s)
    (only_systemAdmins e.fragmentDirectory)
    (fun c s' hc hs' => (hb.tree_of_not_isMutation hc s').trans hs') rfl
  unfold compile
  refine Action.ensures_bind (hread.mono hI (fun _ _ h => h) fun _ _ h => ⟨h.2, h.1⟩) fun v s' hv => ?_
  unfold Action.Ensures
  rw [Action.program_of]
  refine Program.ensures_bind (Program.ensures_emitAll (Q := fun _ s'' => s'' = s') rfl _) fun _ s'' hs'' => ?_
  subst hs''
  exact Program.ensures_done ⟨hv.2, v, hv.1, rfl⟩

/-! ## Enforcing -/

/-- The files that a call aims for: none without entries, else those of the policy that the entries come to with the
value that the reading of the call returns. -/
def aim (host : Host σ) (s : σ) (entries : List Entry) : Except PolicyError TargetFiles :=
  if entries.isEmpty then .ok ⟨none, none⟩
  else ((systemAdmins e.fragmentDirectory).program.run host s).result.map fun v => (AdminPolicy.compile entries v).files

/-- The tree agrees with the entries: without entries both places are empty; else the policy that they come to is
installed, for the value that was read. -/
def Enforced (read : Except PolicyError String) (entries : List Entry) (t : Tree) : Prop :=
  if entries.isEmpty then t.lookup e.targets.rules = none ∧ t.lookup e.targets.authorization = none
  else ∃ v, read = .ok v ∧ Installed e.targets (AdminPolicy.compile entries v) t

end Enforcer

/-- The files are the old ones, or on the way to those that are aimed for. -/
def TargetFiles.Toward (old : TargetFiles) (aim : Except PolicyError TargetFiles) (files : TargetFiles) : Prop :=
  files = old ∨ ∃ new, aim = .ok new ∧ OnTheWay old new files

/-- Files on the way from some files to the same ones are these. -/
theorem TargetFiles.Toward.eq_self {old files : TargetFiles} (h : old.Toward (.ok old) files) : files = old := by
  rcases h with h | ⟨new, hnew, (h | h) | h⟩
  · exact h
  · exact h
  · rw [h, ← Except.ok.inj hnew]
  · rw [h, ← Except.ok.inj hnew]

namespace Enforcer

open Fragments Installation

variable {σ : Type} {host : Host σ} {tree : σ → Tree} (e : Enforcer)

/-- Where the policy is in place, the targets hold the files that were aimed for. -/
theorem Enforced.files_eq {s : σ} {entries : List Entry} {t : Tree}
    (h : e.Enforced ((systemAdmins e.fragmentDirectory).program.run host s).result entries t) :
    e.aim host s entries = .ok (e.targets.files t) := by
  unfold Enforced at h
  unfold aim
  split at h
  · rename_i hempty
    rw [if_pos hempty, Targets.files, Tree.file?_of_none h.1, Tree.file?_of_none h.2]
  · rename_i hne
    obtain ⟨v, hv, hp⟩ := h
    rw [if_neg hne, hv, hp.files_eq]
    rfl

/-- **An enforcement** moves the targets toward the files that it aims for, at every point; it ends with the policy in
place, or gives up with the old authorization document there. -/
theorem ensures_enforce (hb : Backed host tree) (hr : ReportsAbsence host tree) (object : String)
    (entries : List Entry) (s : σ) :
    (e.enforce object entries).Ensures host
      (fun s' => TargetFiles.Toward (e.targets.files (tree s)) (e.aim host s entries) (e.targets.files (tree s')))
      (fun _ s' => e.Enforced ((systemAdmins e.fragmentDirectory).program.run host s).result entries (tree s'))
      (fun _ s' => TargetFiles.Toward (e.targets.files (tree s)) (e.aim host s entries) (e.targets.files (tree s')) ∧
        (e.targets.files (tree s')).authorization = (e.targets.files (tree s)).authorization) s := by
  have hhalf : ∀ {new : TargetFiles} {s' : σ}, e.aim host s entries = .ok new →
      TargetFiles.Halfway (e.targets.files (tree s)) new (e.targets.files (tree s')) →
      TargetFiles.Toward (e.targets.files (tree s)) (e.aim host s entries) (e.targets.files (tree s')) ∧
        (e.targets.files (tree s')).authorization = (e.targets.files (tree s)).authorization := by
    intro new s' ha h
    refine ⟨Or.inr ⟨new, ha, Or.inl h⟩, ?_⟩
    rcases h with h | h
    · rw [h]
    · rw [h]
  unfold enforce
  refine Action.ensures_bind (R := fun _ s' => s' = s) (Action.ensures_emit rfl) fun _ s' hs' => ?_
  subst hs'
  refine Action.ensures_ite (fun hempty => ?_) fun hne => ?_
  · have ha : e.aim host s' entries = .ok ⟨none, none⟩ := if_pos hempty
    refine Action.ensures_bind ((ensures_removeAll hb hr e.apart_targets s').mono
      (fun _ h => Or.inr ⟨_, ha, h⟩) (fun _ _ h => h) fun _ _ h => hhalf ha h) fun _ s₁ h₁ => ?_
    exact Action.ensures_emit ((if_pos hempty).mpr h₁)
  · refine Action.ensures_bind ((e.ensures_compile hb s' entries fun s₁ h => Or.inl (by rw [h])).mono
      (fun _ h => h) (fun _ _ h => h) fun _ s₁ h => ?_) fun p s₁ h₁ => ?_
    · rw [h.1]
      exact ⟨Or.inl rfl, rfl⟩
    obtain ⟨ht, v, hv, rfl⟩ := h₁
    have ha : e.aim host s' entries = .ok (AdminPolicy.compile entries v).files := by
      unfold aim
      rw [if_neg hne, hv]
      rfl
    have hcommit := ensures_commit hb hr e.apart_targets (AdminPolicy.compile entries v) s₁
    rw [ht] at hcommit
    refine Action.ensures_bind (hcommit.mono (fun _ h => Or.inr ⟨_, ha, h⟩) (fun _ _ h => h)
      fun _ _ h => hhalf ha h) fun _ s₂ h₂ => ?_
    exact Action.ensures_emit ((if_neg hne).mpr ⟨v, hv, h₂⟩)

/-- An application to a computer is an enforcement; its error names the object. -/
theorem ensures_apply_of_enforce {I : σ → Prop} {Q : Unit → σ → Prop} {E E' : PolicyError → σ → Prop} {s : σ}
    {object : String} {entries : List Entry} (h : (e.enforce object entries).Ensures host I Q E s)
    (hE : ∀ cause s', E cause s' → E' (.apply object cause) s') :
    (e.apply object true entries).Ensures host I Q E' s := by
  unfold apply Action.Ensures
  rw [if_pos rfl, Action.program_of]
  refine Program.ensures_bind h fun r s' hr => ?_
  cases r with
  | ok _ => exact Program.ensures_done hr
  | error cause => exact Program.ensures_done (hE cause s' hr)

theorem ensures_apply (hb : Backed host tree) (hr : ReportsAbsence host tree) (object : String)
    (entries : List Entry) (s : σ) :
    (e.apply object true entries).Ensures host
      (fun s' => TargetFiles.Toward (e.targets.files (tree s)) (e.aim host s entries) (e.targets.files (tree s')))
      (fun _ s' => e.Enforced ((systemAdmins e.fragmentDirectory).program.run host s).result entries (tree s'))
      (fun _ s' => TargetFiles.Toward (e.targets.files (tree s)) (e.aim host s entries) (e.targets.files (tree s')) ∧
        (e.targets.files (tree s')).authorization = (e.targets.files (tree s)).authorization) s :=
  e.ensures_apply_of_enforce (e.ensures_enforce hb hr object entries s) fun _ _ h => h

end Enforcer

end AdminPolicy
