import AdminPolicy.Proofs.History
import AdminPolicy.Proofs.Naming

/-!
# What is left behind

An installation stages files at temporary places, and each of its steps can fail behind that. Where staging the
document fails, the staged rules are taken back; where a renaming fails, nothing is. So over any number of calls, with
any faults but on removals, no temporary file outlives a call exactly as long as no renaming fails
(`performAll_noLeftovers`). A directory at the place of the rules is enough for one to fail (`not_noLeftovers`).
-/

namespace AdminPolicy

open Memory Faults

/-- Neither temporary place holds a file. -/
structure Targets.NoLeftovers (ts : Targets) (t : Tree) : Prop where
  rules : t.file? (Installation.temporary ts.rules) = none
  authorization : t.file? (Installation.temporary ts.authorization) = none

instance (ts : Targets) (t : Tree) : Decidable (ts.NoLeftovers t) :=
  decidable_of_iff (t.file? (Installation.temporary ts.rules) = none ∧
    t.file? (Installation.temporary ts.authorization) = none) ⟨fun h => ⟨h.1, h.2⟩, fun h => ⟨h.1, h.2⟩⟩

/-- The operation that failed, if the host refused one. -/
def PolicyError.operation? : PolicyError → Option FileOperation
  | io operation _ _ => some operation
  | _ => none

/-- Whether the root of an error is a renaming that failed. -/
def PolicyError.IsOfRename (e : PolicyError) : Prop := e.root.operation? = some .rename

/-- Whether a result is the failure of a renaming. -/
def IsFailedRenaming : Except PolicyError Unit → Prop
  | .ok _ => False
  | .error e => e.IsOfRename

instance : DecidablePred IsFailedRenaming
  | .ok _ => isFalse id
  | .error e => inferInstanceAs (Decidable (e.root.operation? = some .rename))

/-- A failure leaves nothing behind, unless it is that of a renaming: then something is. -/
def Targets.LeftBy (ts : Targets) (e : PolicyError) (t : Tree) : Prop := ts.NoLeftovers t ↔ ¬ e.IsOfRename

/-! ## The operation that failed -/

namespace PolicyError

theorem not_isOfRename_io {op : FileOperation} (h : op ≠ .rename) (path : HostPath) (cause : IoError) :
    ¬ (io op path cause).IsOfRename := fun heq => h (Option.some.inj heq)

theorem IsOfReading.not_isOfRename {e : PolicyError} (h : e.IsOfReading) : ¬ e.IsOfRename := by
  cases h with
  | list path cause => exact not_isOfRename_io (by decide) path cause
  | stat path cause => exact not_isOfRename_io (by decide) path cause
  | read path cause => exact not_isOfRename_io (by decide) path cause
  | fragmentParse path line detail => intro heq; cases heq

end PolicyError

namespace Installation

variable {p : HostPath}

theorem ends_stage (contents : String) (mode : Mode) :
    (stage p contents mode).Ends (fun _ => True) (fun e => ¬ e.IsOfRename) := by
  have hparent : (ensureParent p).Ends (fun _ => True) (fun e => ¬ e.IsOfRename) := by
    unfold ensureParent
    split
    · refine Action.ends_ite (fun _ => Action.ends_pure trivial) fun _ => ?_
      exact Action.ends_attempt (fun _ => trivial) fun _ => PolicyError.not_isOfRename_io (by decide) _ _
    · exact Action.ends_pure trivial
  exact Action.ends_bind hparent fun _ _ =>
    Action.ends_attempt (fun _ => trivial) fun _ => PolicyError.not_isOfRename_io (by decide) _ _

theorem ends_install : (install p).Ends (fun _ => True) PolicyError.IsOfRename :=
  Action.ends_attempt (fun _ => trivial) fun _ => rfl

theorem ends_removeIfExists : (removeIfExists p).Ends (fun _ => True) (fun e => ¬ e.IsOfRename) := by
  refine Program.ends_request fun a => ?_
  cases a with
  | ok _ => exact Program.ends_report (Program.ends_done trivial)
  | error e =>
    simp only
    split
    · exact Program.ends_done trivial
    · exact Program.ends_done (PolicyError.not_isOfRename_io (by decide) _ _)

end Installation

/-! ## Removals that reach the tree -/

namespace Memory

variable {σ : Type} {host' : Host σ} {tree : σ → Tree}

/-- Removals are answered by the tree: none is made to fail. -/
def AnswersRemovals (host' : Host σ) (tree : σ → Tree) : Prop :=
  ∀ p s, (host' (.removeFile p) s).1 = (host (.removeFile p) (tree s)).1

theorem AnswersRemovals.reportsAbsence (hr : AnswersRemovals host' tree) : ReportsAbsence host' tree := by
  intro p s e h he
  exact reportsAbsence_host p (tree s) e ((hr p s).symm.trans h) he

/-- A file that is there can be removed. -/
theorem AnswersRemovals.ok_of_file? (hr : AnswersRemovals host' tree) {p : HostPath} {s : σ} {f : ByteArray × Mode}
    (hf : (tree s).file? p = some f) : (host' (.removeFile p) s).1 = .ok () := by
  have hl : (tree s).lookup p = some (.file f.1 f.2) := Tree.file?_eq_some_iff.mp hf
  rw [hr]
  simp only [host, removeFile, hl]
  rfl

end Memory

namespace Faults

variable {ι : Type}

/-- No removal is made to fail, whatever calls were decided about before. -/
def Injector.SparesRemovals (inject : Injector ι) (i : ι) : Prop :=
  ∀ cs p, (inject (.removeFile p) (inject.after i cs)).1 = none

theorem answersRemovals_reached {inject : Injector ι} {i : ι} (hi : inject.SparesRemovals i) :
    AnswersRemovals (injecting (inject.reached i) Memory.host) Prod.snd := by
  rintro p ⟨⟨j, cs, rfl⟩, t⟩
  have hnone := hi cs p
  rcases hc : inject (.removeFile p) (inject.after i cs) with ⟨e?, j'⟩
  rw [hc] at hnone
  subst hnone
  simp only [injecting, Injector.reached, hc]

/-- A schedule without faults on removals spares them. -/
theorem sparesRemovals_consult {fs : List Fault} (h : ∀ f ∈ fs, f.kind ≠ .removeFile) :
    Injector.SparesRemovals consult fs := by
  intro cs p
  cases he : (consult (.removeFile p) (Injector.after consult fs cs)).1 with
  | none => rfl
  | some e =>
    obtain ⟨f, hf, hk, -⟩ := mem_of_consult he
    obtain ⟨g, hg, hk', -⟩ := mem_after_consult hf
    exact absurd (hk'.symm.trans hk) (h g hg)

end Faults

/-! ## A single call -/

namespace Installation

variable {σ : Type} {host : Host σ} {tree : σ → Tree} {s : σ} {ts : Targets}

/-- Naming the object changes nothing about what failed. -/
theorem leftBy_apply {object : String} {e : PolicyError} {t : Tree} :
    ts.LeftBy (.apply object e) t ↔ ts.LeftBy e t := Iff.rfl

/-- What every step but a renaming leaves, if it fails. -/
theorem leftBy_of_noLeftovers {e : PolicyError} {t : Tree} (ht : ts.NoLeftovers t) (he : ¬ e.IsOfRename) :
    ts.LeftBy e t := ⟨fun _ => he, fun _ => ht⟩

/-- A renaming that fails leaves what it was to move. -/
theorem leftBy_of_isOfRename {e : PolicyError} {t : Tree} (ht : ¬ ts.NoLeftovers t) (he : e.IsOfRename) :
    ts.LeftBy e t := ⟨fun h => absurd h ht, fun h => absurd he h⟩

theorem noLeftovers_congr {t t' : Tree} (ht : ts.NoLeftovers t)
    (hr : t'.file? (temporary ts.rules) = t.file? (temporary ts.rules))
    (ha : t'.file? (temporary ts.authorization) = t.file? (temporary ts.authorization)) : ts.NoLeftovers t' :=
  ⟨hr.trans ht.rules, ha.trans ht.authorization⟩

/-- Staging the rules leaves the other temporary place alone, and both if it fails. -/
theorem ensures_stage_rules (hb : Backed host tree) (ha : ts.Apart) (ht : ts.NoLeftovers (tree s)) (contents : String) :
    (stage ts.rules contents rulesMode).Ensures host (fun _ => True)
      (fun _ s' => (tree s').file? (temporary ts.rules) = some (contents.toUTF8, rulesMode) ∧
        (tree s').file? (temporary ts.authorization) = none)
      (fun e s' => ts.LeftBy e (tree s')) s := by
  have hstage : (stage ts.rules contents rulesMode).Ensures host (fun _ => True)
      (fun _ s' => (tree s').file? (temporary ts.rules) = some (contents.toUTF8, rulesMode) ∧
        (tree s').file? (temporary ts.authorization) = none)
      (fun _ s' => ts.NoLeftovers (tree s')) s := by
    refine ensures_stage hb (fun _ _ => trivial) (fun s' h hf => ⟨hf, ?_⟩) fun _ s' h => ?_
    · rw [h _ ha.temporary_temporary]
      exact ht.authorization
    · exact noLeftovers_congr ht (h _) (h _)
  exact (hstage.and_ends (ends_stage contents rulesMode)).mono (fun _ h => h) (fun _ _ h => h.1)
    fun _ _ h => leftBy_of_noLeftovers h.1 h.2

/-- Giving up a file that was staged empties its place. -/
theorem ensures_discard_staged (hb : Backed host tree) (hr : AnswersRemovals host tree) {p : HostPath}
    {f : ByteArray × Mode} (hf : (tree s).file? (temporary p) = some f) :
    Program.Ensures host (fun _ => True) (discard p)
      (fun _ s' => ∀ q, (tree s').lookup q = if (temporary p).Same q then none else (tree s).lookup q) s := by
  have hok := hr.ok_of_file? hf
  obtain ⟨-, ht⟩ := hb.effect hok
  unfold discard
  refine Program.ensures_request trivial ?_
  rw [hok]
  refine Program.ensures_done fun q => ?_
  rw [ht, Tree.lookup_erase]

/-- Staging the document behind the rules: both files are staged, or neither is. -/
theorem ensures_stageAuthorization_rules (hb : Backed host tree) (hr : AnswersRemovals host tree) (ha : ts.Apart)
    {f : ByteArray × Mode} (hf : (tree s).file? (temporary ts.rules) = some f)
    (hn : (tree s).file? (temporary ts.authorization) = none) (document : String) :
    (stageAuthorization ts document).Ensures host (fun _ => True)
      (fun _ s' => (tree s').file? (temporary ts.rules) = some f ∧
        (tree s').file? (temporary ts.authorization) = some (document.toUTF8, authorizationMode))
      (fun e s' => ts.LeftBy e (tree s')) s := by
  have hstage : (stage ts.authorization document authorizationMode).Ensures host (fun _ => True)
      (fun _ s' => (tree s').file? (temporary ts.rules) = some f ∧
        (tree s').file? (temporary ts.authorization) = some (document.toUTF8, authorizationMode))
      (fun _ s' => (tree s').file? (temporary ts.rules) = some f ∧
        (tree s').file? (temporary ts.authorization) = none) s := by
    refine ensures_stage hb (fun _ _ => trivial) (fun s' h hd => ⟨?_, hd⟩) fun _ s' h => ⟨?_, ?_⟩
    · rw [h _ (mt HostPath.Same.symm ha.temporary_temporary), hf]
    · rw [h, hf]
    · rw [h, hn]
  unfold stageAuthorization Action.Ensures
  rw [Action.program_of]
  refine Program.ensures_bind (hstage.and_ends (ends_stage document authorizationMode)) fun r s₁ h₁ => ?_
  cases r with
  | ok _ => exact Program.ensures_done h₁.1
  | error e =>
    obtain ⟨⟨hf₁, hn₁⟩, he⟩ := h₁
    refine Program.ensures_bind (ensures_discard_staged hb hr hf₁) fun _ s₂ h₂ => Program.ensures_done ?_
    refine leftBy_of_noLeftovers ⟨Tree.file?_of_none ?_, ?_⟩ he
    · rw [h₂, if_pos (HostPath.Same.refl _)]
    · rw [← hn₁]
      exact Tree.file?_of_lookup (by rw [h₂, if_neg ha.temporary_temporary])

/-- Installing staged rules: they are gone from their temporary place, or a renaming failed and they are still there. -/
theorem ensures_install_staged_rules (hb : Backed host tree) (ha : ts.Apart) {f : ByteArray × Mode}
    (hf : (tree s).file? (temporary ts.rules) = some f) :
    (install ts.rules).Ensures host (fun _ => True)
      (fun _ s' => (tree s').file? (temporary ts.rules) = none ∧
        (tree s').file? (temporary ts.authorization) = (tree s).file? (temporary ts.authorization))
      (fun e s' => ts.LeftBy e (tree s')) s := by
  have hinstall : (install ts.rules).Ensures host (fun _ => True)
      (fun _ s' => (tree s').file? (temporary ts.rules) = none ∧
        (tree s').file? (temporary ts.authorization) = (tree s).file? (temporary ts.authorization))
      (fun _ s' => ¬ ts.NoLeftovers (tree s')) s := by
    refine ensures_install hb hf (fun s' h => ⟨trivial, ?_, ?_⟩) fun _ s' h => ⟨trivial, fun hnone => ?_⟩
    · exact Tree.file?_of_none (by rw [h, if_neg ha.rules_temporary, if_pos (HostPath.Same.refl _)])
    · exact Tree.file?_of_lookup
        (by rw [h, if_neg ha.rules_temporaryAuthorization, if_neg ha.temporary_temporary])
    · have hstill := Tree.file?_of_lookup (h (temporary ts.rules))
      rw [hnone.rules, hf] at hstill
      cases hstill
  exact (hinstall.and_ends ends_install).mono (fun _ h => h) (fun _ _ h => h.1) fun _ _ h =>
    leftBy_of_isOfRename h.1 h.2

/-- Installing the staged document behind the rules. -/
theorem ensures_install_staged_authorization (hb : Backed host tree) (ha : ts.Apart) {f : ByteArray × Mode}
    (hn : (tree s).file? (temporary ts.rules) = none)
    (hf : (tree s).file? (temporary ts.authorization) = some f) :
    (install ts.authorization).Ensures host (fun _ => True) (fun _ s' => ts.NoLeftovers (tree s'))
      (fun e s' => ts.LeftBy e (tree s')) s := by
  have hinstall : (install ts.authorization).Ensures host (fun _ => True) (fun _ s' => ts.NoLeftovers (tree s'))
      (fun _ s' => ¬ ts.NoLeftovers (tree s')) s := by
    refine ensures_install hb hf (fun s' h => ⟨trivial, ?_, ?_⟩) fun _ s' h => ⟨trivial, fun hnone => ?_⟩
    · rw [← hn]
      exact Tree.file?_of_lookup (by
        rw [h, if_neg ha.authorization_temporaryRules, if_neg (mt HostPath.Same.symm ha.temporary_temporary)])
    · exact Tree.file?_of_none (by rw [h, if_neg ha.authorization_temporary, if_pos (HostPath.Same.refl _)])
    · have hstill := Tree.file?_of_lookup (h (temporary ts.authorization))
      rw [hnone.authorization, hf] at hstill
      cases hstill
  exact (hinstall.and_ends ends_install).mono (fun _ h => h) (fun _ _ h => h.1) fun _ _ h =>
    leftBy_of_isOfRename h.1 h.2

/-- Removing a file that is at neither temporary place leaves both alone, whether it fails or not. -/
theorem ensures_removeIfExists_elsewhere (hb : Backed host tree) (hr : AnswersRemovals host tree) {p : HostPath}
    (ht : ts.NoLeftovers (tree s)) (hrules : ¬ p.Same (temporary ts.rules))
    (hauthorization : ¬ p.Same (temporary ts.authorization)) :
    (removeIfExists p).Ensures host (fun _ => True) (fun _ s' => ts.NoLeftovers (tree s'))
      (fun e s' => ts.LeftBy e (tree s')) s := by
  have hremove : (removeIfExists p).Ensures host (fun _ => True) (fun _ s' => ts.NoLeftovers (tree s'))
      (fun _ s' => ts.NoLeftovers (tree s')) s := by
    refine ensures_removeIfExists hb hr.reportsAbsence (fun s' h => ⟨trivial, ?_⟩) fun _ s' h => ⟨trivial, ?_⟩
    · exact noLeftovers_congr ht (Tree.file?_of_lookup (by rw [h, if_neg hrules]))
        (Tree.file?_of_lookup (by rw [h, if_neg hauthorization]))
    · exact noLeftovers_congr ht (Tree.file?_of_lookup (h _)) (Tree.file?_of_lookup (h _))
  exact (hremove.and_ends ends_removeIfExists).mono (fun _ h => h) (fun _ _ h => h.1) fun _ _ h =>
    leftBy_of_noLeftovers h.1 h.2

/-- **What a commit leaves behind**: nothing, unless a renaming fails. -/
theorem ensures_commit_leftovers (hb : Backed host tree) (hr : AnswersRemovals host tree) (ha : ts.Apart)
    (ht : ts.NoLeftovers (tree s)) (p : CompiledPolicy) :
    (commit ts p).Ensures host (fun _ => True) (fun _ s' => ts.NoLeftovers (tree s'))
      (fun e s' => ts.LeftBy e (tree s')) s := by
  unfold commit
  refine Action.ensures_bind (ensures_stage_rules hb ha ht p.renderRules) fun _ s₁ h₁ => ?_
  obtain ⟨hf₁, hn₁⟩ := h₁
  cases p.authorization.render? with
  | some document =>
    refine Action.ensures_bind (ensures_stageAuthorization_rules hb hr ha hf₁ hn₁ document) fun _ s₂ h₂ => ?_
    obtain ⟨hf₂, hf₂'⟩ := h₂
    refine Action.ensures_bind (ensures_install_staged_rules hb ha hf₂) fun _ s₃ h₃ => ?_
    refine Action.ensures_bind (R := fun _ s₄ => s₄ = s₃) (Action.ensures_emit rfl) fun _ s₄ h₄ => ?_
    subst h₄
    refine Action.ensures_bind (ensures_install_staged_authorization hb ha h₃.1 (h₃.2.trans hf₂')) fun _ s₅ h₅ => ?_
    exact Action.ensures_bind (Action.ensures_emit h₅) fun _ _ h => Action.ensures_pure h
  | none =>
    refine Action.ensures_bind (ensures_install_staged_rules hb ha hf₁) fun _ s₂ h₂ => ?_
    have ht₂ : ts.NoLeftovers (tree s₂) := ⟨h₂.1, h₂.2.trans hn₁⟩
    refine Action.ensures_bind (R := fun _ s₃ => s₃ = s₂) (Action.ensures_emit rfl) fun _ s₃ h₃ => ?_
    subst h₃
    exact Action.ensures_bind (ensures_removeIfExists_elsewhere hb hr ht₂ ha.authorization_temporaryRules
      ha.authorization_temporary) fun _ _ h => Action.ensures_pure h

end Installation

/-! ## Any number of calls -/

/-- A call that may write at the targets: an application, or the installation of a policy. -/
inductive WriterCall where
  | apply (request : Request)
  | commit (policy : CompiledPolicy)

namespace Enforcer

open Installation

variable {σ : Type} {host : Host σ} {tree : σ → Tree} (e : Enforcer)

def perform (e : Enforcer) : WriterCall → Action Unit
  | .apply r => e.apply r.object r.isComputer r.entries
  | .commit p => do
    let _ ← Installation.commit e.targets p
    pure ()

/-- The runs of calls one after the other, each of them to its end, whatever that is. -/
def performAll (host : Host σ) (s : σ) : List WriterCall → List (Run σ (Except PolicyError Unit))
  | [] => []
  | c :: cs =>
    let r := (e.perform c).program.run host s
    r :: performAll host r.final cs

theorem ensures_enforce_leftovers (hb : Backed host tree) (hr : AnswersRemovals host tree) (object : String)
    (entries : List Entry) {s : σ} (ht : e.targets.NoLeftovers (tree s)) :
    (e.enforce object entries).Ensures host (fun _ => True) (fun _ s' => e.targets.NoLeftovers (tree s'))
      (fun err s' => e.targets.LeftBy err (tree s')) s := by
  have ha := e.apart_targets
  unfold enforce
  refine Action.ensures_bind (R := fun _ s' => s' = s) (Action.ensures_emit rfl) fun _ s' hs' => ?_
  subst hs'
  refine Action.ensures_ite (fun _ => ?_) fun _ => ?_
  · have hremove : (removeAll e.targets).Ensures host (fun _ => True)
        (fun _ s' => e.targets.NoLeftovers (tree s')) (fun err s' => e.targets.LeftBy err (tree s')) s' :=
      Action.ensures_bind (ensures_removeIfExists_elsewhere hb hr ht ha.rules_temporary
        ha.rules_temporaryAuthorization) fun _ _ h₁ => ensures_removeIfExists_elsewhere hb hr h₁
          ha.authorization_temporaryRules ha.authorization_temporary
    exact Action.ensures_bind hremove fun _ _ h₁ => Action.ensures_emit h₁
  · -- a reading that fails is no renaming
    have hcompile : (e.compile entries).Ensures host (fun _ => True) (fun _ s₁ => tree s₁ = tree s')
        (fun err s₁ => e.targets.LeftBy err (tree s₁)) s' := by
      refine (e.ensures_compile hb s' entries fun _ _ => trivial).mono (fun _ h => h) (fun _ _ h => h.1) ?_
      rintro err s₁ ⟨htree, herr⟩
      have hreading := (Fragments.ends_layeredAdmins _ _).of_error herr
      exact leftBy_of_noLeftovers (by rw [htree]; exact ht) hreading.not_isOfRename
    refine Action.ensures_bind hcompile fun p s₁ h₁ => ?_
    have ht₁ : e.targets.NoLeftovers (tree s₁) := by
      rw [h₁]
      exact ht
    exact Action.ensures_bind (ensures_commit_leftovers hb hr ha ht₁ p) fun _ _ h => Action.ensures_emit h

/-- **What a call leaves behind**: nothing, unless a renaming fails. -/
theorem ensures_perform (hb : Backed host tree) (hr : AnswersRemovals host tree) (c : WriterCall) {s : σ}
    (ht : e.targets.NoLeftovers (tree s)) :
    (e.perform c).Ensures host (fun _ => True) (fun _ s' => e.targets.NoLeftovers (tree s'))
      (fun err s' => e.targets.LeftBy err (tree s')) s := by
  cases c with
  | apply r =>
    obtain ⟨object, isComputer, entries⟩ := r
    simp only [perform]
    cases isComputer with
    | true =>
      exact e.ensures_apply_of_enforce (e.ensures_enforce_leftovers hb hr object entries ht)
        fun _ _ h => leftBy_apply.mpr h
    | false => exact Action.ensures_pure ht
  | commit p =>
    exact Action.ensures_bind (ensures_commit_leftovers hb hr e.apart_targets ht p) fun _ _ h => Action.ensures_pure h

/-- Calls leave nothing behind exactly as long as no renaming fails. -/
theorem noLeftovers_performAll (hb : Backed host tree) (hr : AnswersRemovals host tree) (cs : List WriterCall) {s : σ}
    (ht : e.targets.NoLeftovers (tree s)) :
    (∀ r ∈ e.performAll host s cs, e.targets.NoLeftovers (tree r.final)) ↔
      ∀ r ∈ e.performAll host s cs, ¬ IsFailedRenaming r.result := by
  induction cs generalizing s with
  | nil => simp [performAll]
  | cons c cs ih =>
    have hcall := e.ensures_perform hb hr c ht
    have hone : e.targets.NoLeftovers (tree ((e.perform c).program.run host s).final) ↔
        ¬ IsFailedRenaming ((e.perform c).program.run host s).result := by
      cases hres : ((e.perform c).program.run host s).result with
      | ok _ => exact ⟨fun _ h => h, fun _ => hcall.of_ok hres⟩
      | error err => exact hcall.of_error hres
    simp only [performAll, List.forall_mem_cons, ← hone]
    -- each call but the first finds what the one before it left
    constructor
    · rintro ⟨hclean, h⟩
      exact ⟨hclean, (ih hclean).mp h⟩
    · rintro ⟨hclean, h⟩
      exact ⟨hclean, (ih hclean).mpr h⟩

theorem performAll_map {τ : Type} {host' : Host τ} (f : σ → τ)
    (h : ∀ c s, host' c (f s) = ((host c s).1, f (host c s).2)) (cs : List WriterCall) (s : σ) :
    e.performAll host' (f s) cs = (e.performAll host s cs).map (Run.map f) := by
  induction cs generalizing s with
  | nil => rfl
  | cons c cs ih =>
    have hrun := Program.run_map f h (e.perform c).program s
    simp only [performAll, hrun, List.map_cons]
    exact congrArg _ (ih _)

/-- **When calls leave something behind.** Let both temporary places of a tree hold no file, and let any calls follow,
applications and installations of policies, of which any calls to the host but removals may fail. Then there is no
file at either place behind each of them, exactly as long as none of them fails in a renaming. -/
theorem performAll_noLeftovers {ι : Type} (inject : Injector ι) (i : ι) (hi : inject.SparesRemovals i)
    (cs : List WriterCall) (t : Tree) (ht : e.targets.NoLeftovers t) :
    let runs := e.performAll (injecting inject Memory.host) (i, t) cs
    (∀ r ∈ runs, e.targets.NoLeftovers r.final.2) ↔ ∀ r ∈ runs, ¬ IsFailedRenaming r.result := by
  intro runs
  have hruns : runs = (e.performAll (injecting (inject.reached i) Memory.host) (⟨i, [], rfl⟩, t) cs).map
      (Run.map Injector.forget) :=
    e.performAll_map Injector.forget (injecting_forget inject Memory.host) cs (⟨i, [], rfl⟩, t)
  have h := e.noLeftovers_performAll (backed_injecting (inject.reached i)) (answersRemovals_reached hi) cs
    (s := (⟨i, [], rfl⟩, t)) ht
  rw [hruns, List.forall_mem_map, List.forall_mem_map]
  exact h

/-- The second file that is written is refused. -/
def secondWriteDenied : List Fault := [⟨.writeFile, none, 1, 1, ⟨.permissionDenied, "denied"⟩⟩]

/-- An application whose document cannot be staged takes the rules back, and a commit behind it installs both. -/
theorem performAll_noLeftovers_secondWriteDenied :
    let e := Enforcer.of ⟨"s"⟩ ⟨"p"⟩
    let policy := AdminPolicy.compile [⟨.allowLocalAdmins, "", true⟩] ""
    let runs := e.performAll (Faults.host Memory.host) (secondWriteDenied, [])
      [.apply ⟨"HOST", true, [⟨.clientAdmins, "bob", false⟩]⟩, .commit policy]
    Injector.SparesRemovals consult secondWriteDenied ∧ e.targets.NoLeftovers [] ∧
      runs.map (fun r => r.result.isOk) = [false, true] ∧ ∀ r ∈ runs, e.targets.NoLeftovers r.final.2 := by
  intro e policy runs
  have hi : Injector.SparesRemovals consult secondWriteDenied := sparesRemovals_consult (by decide)
  have ht : e.targets.NoLeftovers [] := by decide +kernel
  have hrenamed : ∀ r ∈ runs, ¬ IsFailedRenaming r.result := by decide +kernel
  exact ⟨hi, ht, by decide +kernel, (performAll_noLeftovers e consult secondWriteDenied hi _ [] ht).mpr hrenamed⟩

/-- A host with a directory at the place of the rules. -/
def blockedTree : Tree :=
  [(⟨"s"⟩, .directory 0o755), (⟨"s/99-privguard-privilege-enforcement"⟩, .directory 0o755)]

/-- Not every call leaves the temporary places empty: where the rules cannot be moved to their place, they stay staged,
although no fault was injected. -/
theorem not_noLeftovers :
    ¬ ∀ (e : Enforcer) (cs : List WriterCall) (t : Tree), e.targets.NoLeftovers t →
      ∀ r ∈ e.performAll Memory.host t cs, e.targets.NoLeftovers r.final := by
  intro h
  have hclaimed := h (Enforcer.of ⟨"s"⟩ ⟨"p"⟩) [.apply ⟨"HOST", true, [⟨.clientAdmins, "bob", false⟩]⟩] blockedTree
    (by decide +kernel)
  exact absurd hclaimed (by decide +kernel)

end Enforcer

end AdminPolicy
