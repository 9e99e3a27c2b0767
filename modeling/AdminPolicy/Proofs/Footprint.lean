import AdminPolicy.Proofs.Enforcement

/-!
# The footprint of an application

The calls of an application write only at the four places of its files, and make directories (`only_apply`). Whatever
becomes of them, a place outside these four keeps what it holds; only where nothing was a directory may be made
(`Tree.GrewOutside`). An application keeps to that on every backed host, and so does any number of them
(`grewOutside_apply`).
-/

namespace AdminPolicy

open Memory

/-- The calls that write at the places of an installation alone, or make directories, or look. -/
def Targets.Allows (ts : Targets) : HostCall → Prop
  | .createDirAll _ _ => True
  | .writeFile p _ _ => ts.IsOwnPlace p
  | .rename p q => ts.IsOwnPlace p ∧ ts.IsOwnPlace q
  | .removeFile p => ts.IsOwnPlace p
  | .readText _ | .listDir _ | .isDir _ => True

theorem Targets.allows_of_not_isMutation (ts : Targets) {c : HostCall} (hc : c.isMutation = false) : ts.Allows c := by
  cases c with
  | readText _ => trivial
  | listDir _ => trivial
  | isDir _ => trivial
  | _ => cases hc

/-! ## The calls of an installation -/

namespace Installation

open Program

variable {P : HostCall → Prop} {p : HostPath} {ts : Targets}

theorem only_ensureParent (h : ∀ q, P (.createDirAll q directoryMode)) : (ensureParent p).program.Only P := by
  unfold ensureParent
  split
  · exact Action.only_ite (Action.only_pure _) (Action.only_attempt (h _))
  · exact Action.only_pure _

theorem only_stage {contents : String} {mode : Mode} (hd : ∀ q, P (.createDirAll q directoryMode))
    (hw : P (.writeFile (temporary p) contents.toUTF8 mode)) : (stage p contents mode).program.Only P :=
  Action.only_bind (only_ensureParent hd) fun _ => Action.only_attempt hw

theorem only_install (h : P (.rename (temporary p) p)) : (install p).program.Only P := Action.only_attempt h

theorem only_discard (h : P (.removeFile (temporary p))) : (discard p).Only P := by
  refine only_request h fun a => ?_
  cases a with
  | ok _ => exact only_done _
  | error _ => exact only_report (only_done _)

theorem only_removeIfExists (h : P (.removeFile p)) : (removeIfExists p).program.Only P := by
  refine only_request h fun a => ?_
  cases a with
  | ok _ => exact only_report (only_done _)
  | error e =>
    simp only
    split <;> exact only_done _

theorem only_removeAll (h : P (.removeFile ts.rules)) (h' : P (.removeFile ts.authorization)) :
    (removeAll ts).program.Only P :=
  Action.only_bind (only_removeIfExists h) fun _ => only_removeIfExists h'

theorem only_stageAuthorization (ts : Targets) (document : String) :
    (stageAuthorization ts document).program.Only ts.Allows := by
  refine (only_stage (fun _ => trivial) ts.isOwnPlace_temporary_authorization).bind fun r => ?_
  cases r with
  | ok _ => exact only_done _
  | error _ => exact (only_discard ts.isOwnPlace_temporary_rules).bind fun _ => only_done _

theorem only_commit (ts : Targets) (policy : CompiledPolicy) : (commit ts policy).program.Only ts.Allows := by
  have hrules : (install ts.rules).program.Only ts.Allows :=
    only_install ⟨ts.isOwnPlace_temporary_rules, ts.isOwnPlace_rules⟩
  have hauthorization : (install ts.authorization).program.Only ts.Allows :=
    only_install ⟨ts.isOwnPlace_temporary_authorization, ts.isOwnPlace_authorization⟩
  unfold commit
  refine Action.only_bind (only_stage (fun _ => trivial) ts.isOwnPlace_temporary_rules) fun _ => ?_
  cases policy.authorization.render? with
  | some document =>
    refine Action.only_bind (only_stageAuthorization ts document) fun _ => ?_
    refine Action.only_bind hrules fun _ => Action.only_bind (Action.only_emit _) fun _ => ?_
    exact Action.only_bind hauthorization fun _ => Action.only_bind (Action.only_emit _) fun _ => Action.only_pure _
  | none =>
    refine Action.only_bind hrules fun _ => Action.only_bind (Action.only_emit _) fun _ => ?_
    exact Action.only_bind (only_removeIfExists ts.isOwnPlace_authorization) fun _ => Action.only_pure _

end Installation

/-! ## The calls of an application -/

namespace Enforcer

open Installation Program

variable (e : Enforcer)

theorem only_compile {P : HostCall → Prop} (h : ∀ c, Fragments.Looks c → P c) (entries : List Entry) :
    (e.compile entries).program.Only P :=
  Action.only_bind ((only_systemAdmins e.fragmentDirectory).mono h) fun _ =>
    (Program.only_emitAll _).bind fun _ => only_done _

theorem only_enforce (object : String) (entries : List Entry) :
    (e.enforce object entries).program.Only e.targets.Allows := by
  refine Action.only_bind (Action.only_emit _) fun _ => Action.only_ite ?_ ?_
  · exact Action.only_bind (only_removeAll e.targets.isOwnPlace_rules e.targets.isOwnPlace_authorization)
      fun _ => Action.only_emit _
  · refine Action.only_bind (e.only_compile (fun _ => Targets.allows_of_not_isMutation _) entries) fun p => ?_
    exact Action.only_bind (only_commit e.targets p) fun _ => Action.only_emit _

/-- What encloses an enforcement makes no calls of its own. -/
theorem only_apply_of_only_enforce {P : HostCall → Prop} {object : String} {entries : List Entry}
    (h : (e.enforce object entries).program.Only P) (isComputer : Bool) :
    (e.apply object isComputer entries).program.Only P := by
  unfold apply
  refine Action.only_ite (h.bind fun r => ?_) (Action.only_pure _)
  cases r <;> exact only_done _

/-- **An application writes only at its own places**, and makes directories. -/
theorem only_apply (object : String) (isComputer : Bool) (entries : List Entry) :
    (e.apply object isComputer entries).program.Only e.targets.Allows :=
  e.only_apply_of_only_enforce (e.only_enforce object entries) isComputer

/-- Without entries nothing is read: files are removed, and that is all. -/
theorem only_apply_nil (object : String) (isComputer : Bool) :
    (e.apply object isComputer []).program.Only fun c => c = .removeFile e.targets.rules ∨
      c = .removeFile e.targets.authorization := by
  refine e.only_apply_of_only_enforce ?_ isComputer
  unfold enforce
  rw [if_pos List.isEmpty_nil]
  refine Action.only_bind (Action.only_emit _) fun _ => ?_
  exact Action.only_bind (only_removeAll (Or.inl rfl) (Or.inr rfl)) fun _ => Action.only_emit _

end Enforcer

/-! ## Growing -/

/-- Outside the places of an installation everything stays, but directories may be made where there was nothing. -/
def Memory.Tree.GrewOutside (ts : Targets) (t t' : Tree) : Prop :=
  ∀ p, ¬ ts.IsOwnPlace p → t'.lookup p = t.lookup p ∨ t.lookup p = none ∧ ∃ m, t'.lookup p = some (.directory m)

namespace Memory

open Memory.Tree

variable {ts : Targets} {t t' t'' : Tree}

theorem Tree.GrewOutside.refl (ts : Targets) (t : Tree) : t.GrewOutside ts t := fun _ _ => Or.inl rfl

theorem Tree.GrewOutside.trans (h : t.GrewOutside ts t') (h' : t'.GrewOutside ts t'') : t.GrewOutside ts t'' := by
  intro p hp
  rcases h p hp with h | ⟨h, m, hm⟩
  · rw [← h]
    exact h' p hp
  · rcases h' p hp with h' | ⟨h', _⟩
    · exact Or.inr ⟨h, m, h'.trans hm⟩
    · rw [hm] at h'; cases h'

/-- A call that is allowed lets a tree grow. -/
theorem Effect.grewOutside {c : HostCall} (h : Effect t t' c) (hc : ts.Allows c) : t.GrewOutside ts t' := by
  intro q hq
  cases c with
  | createDirAll p m =>
    rw [h.2]
    exact (lookup_putDirectories_cases t p q m).imp_right fun ⟨h₁, h₂⟩ => ⟨h₁, m, h₂⟩
  | writeFile p c m =>
    rw [h.2.2, lookup_put, if_neg (hc.not_same hq)]
    exact Or.inl rfl
  | rename p p' =>
    obtain ⟨_, _, c, m, _, rfl⟩ := h
    rw [lookup_put, if_neg (hc.2.not_same hq), lookup_erase, if_neg (hc.1.not_same hq)]
    exact Or.inl rfl
  | removeFile p =>
    rw [h.2, lookup_erase, if_neg (hc.not_same hq)]
    exact Or.inl rfl
  | readText _ | listDir _ | isDir _ =>
    have h : t' = t := h
    rw [h]
    exact Or.inl rfl

variable {σ : Type} {host' : Host σ} {tree : σ → Tree}

theorem Backed.grewOutside (hb : Backed host' tree) {c : HostCall} (hc : ts.Allows c) (s : σ) :
    (tree s).GrewOutside ts (tree (host' c s).2) := by
  cases h : (host' c s).1 with
  | ok r => exact (hb.effect h).grewOutside hc
  | error e => exact fun p _ => Or.inl (hb.lookup_of_error h p)

end Memory

/-- **The frame of an application**: whatever calls fail, a place of others keeps what it holds. -/
theorem Enforcer.grewOutside_apply {σ : Type} {host : Host σ} {tree : σ → Tree} (e : Enforcer)
    (hb : Backed host tree) (object : String) (isComputer : Bool) (entries : List Entry) (s : σ) :
    (tree s).GrewOutside e.targets (tree ((e.apply object isComputer entries).program.run host s).final) :=
  (e.only_apply object isComputer entries).final_keeps (I := fun s' => (tree s).GrewOutside e.targets (tree s'))
    (fun _ s' hc h => h.trans (hb.grewOutside hc s')) (.refl _ _)

end AdminPolicy
