import AdminPolicy.CommandLine.Execution
import AdminPolicy.Proofs.Posix.Installation
import AdminPolicy.Proofs.Transition

/-!
# Dry runs

What `preview` prints, against what `Enforcer.apply` does on the same state. A dry run only looks. Where it gives up,
applying gives up with the same root, and changes nothing on its way (`FailsAlike`). Where both succeed, the dry run
has printed what applying leaves at the targets (`Foretells`). Both programs read the fragments by `Enforcer.compile`,
so on any host all that is left to know is what a successful installation leaves (`Installs`).

In memory this holds of every tree. On a POSIX file system removing keeps to it always, and installing does unless it
gets into its own way (`Posix.State.Untangled`): what is staged for one target can be written over what is staged for
the other, through a link (`linkedState`) or because both names stand for one inode (`sharedState`).
-/

namespace AdminPolicy

open CommandLine Fragments Installation

/-! ## What is printed -/

/-- What is printed of a file says what is there: its contents, and that it is gone exactly if it is. -/
structure Tells (printed : String) (file? : Option ByteArray) : Prop where
  contents : ∀ c, file? = some c → printed.toUTF8 = c
  removed : printed = "(removed)\n" ↔ file? = none

theorem generated_ne_removed (rest : String) : generatedHeader ++ rest ≠ "(removed)\n" := by
  intro h
  have hsize := congrArg String.utf8ByteSize h
  have hheader : "(removed)\n".utf8ByteSize < generatedHeader.utf8ByteSize := by decide +kernel
  rw [String.utf8ByteSize_append] at hsize
  omega

/-- The printing of a generated file, or of none. -/
theorem tells_of_generated {text? : Option String}
    (h : ∀ text, text? = some text → ∃ rest, text = generatedHeader ++ rest) :
    Tells (text?.getD "(removed)\n") (text?.map String.toUTF8) := by
  cases text? with
  | none => exact ⟨nofun, by simp⟩
  | some text =>
    obtain ⟨rest, rfl⟩ := h text rfl
    refine ⟨fun c hc => Option.some.inj hc, ?_⟩
    simp [generated_ne_removed rest]

/-! ## Failing alike -/

section Failing

variable {σ α β : Type} {host : Host σ} {s : σ} {root : PolicyError}

/-- Calls that only look change nothing. -/
def OnlyLooks (host : Host σ) : Prop := ∀ (c : HostCall) (s : σ), Looks c → (host c s).2 = s

/-- The action gives up with an error of this root, and changes nothing on its way. -/
def FailsWith (host : Host σ) (root : PolicyError) (a : Action α) (s : σ) : Prop :=
  a.Ensures host (fun s' => s' = s) (fun _ _ => False) (fun err s' => s' = s ∧ err.root = root) s

theorem ensures_of_looks (hl : OnlyLooks host) {a : Action α} (ha : a.program.Only Looks) (s : σ) :
    a.Ensures host (fun s' => s' = s) (fun x s' => (a.program.run host s).result = .ok x ∧ s' = s)
      (fun err s' => (a.program.run host s).result = .error err ∧ s' = s) s :=
  Action.ensures_of_only ha (fun c s' hc hs' => (hl c s' hc).trans hs') rfl

theorem failsWith_of_looks (hl : OnlyLooks host) {a : Action α} (ha : a.program.Only Looks) {err : PolicyError}
    (hr : (a.program.run host s).result = .error err) : FailsWith host err.root a s := by
  refine (ensures_of_looks hl ha s).mono (fun _ h => h) (fun x s' h => ?_) fun err' s' h => ?_
  · rw [hr] at h
    cases h.1
  · rw [hr] at h
    cases h.1
    exact ⟨h.2, rfl⟩

/-- What gives up, gives up for all that follows it. -/
theorem FailsWith.bind {a : Action α} (h : FailsWith host root a s) (k : α → Action β) :
    FailsWith host root (a >>= k) s :=
  Action.ensures_bind h fun _ _ h => h.elim

/-- What is looked up first does not matter. -/
theorem FailsWith.after (hl : OnlyLooks host) {a : Action α} (ha : a.program.Only Looks) {k : α → Action β} {x : α}
    (hr : (a.program.run host s).result = .ok x) (h : FailsWith host root (k x) s) :
    FailsWith host root (a >>= k) s := by
  refine Action.ensures_bind ((ensures_of_looks hl ha s).mono (fun _ h => h) (fun _ _ h => h) fun err s' h => ?_)
    fun y s' hy => ?_
  · rw [hr] at h
    cases h.1
  · obtain ⟨hy, rfl⟩ := hy
    rw [hr] at hy
    cases hy
    exact h

theorem FailsWith.result {a : Action α} (h : FailsWith host root a s) :
    (∃ err, (a.program.run host s).result = .error err ∧ err.root = root) ∧
      ∀ s' ∈ (a.program.run host s).states s, s' = s := by
  refine ⟨?_, h.mem_states rfl (fun _ _ h => h.elim) fun _ _ h => h.1⟩
  cases hr : (a.program.run host s).result with
  | ok x => exact (h.of_ok hr).elim
  | error err => exact ⟨err, rfl, (h.of_error hr).2⟩

/-- An action that looks first, where it succeeds. -/
theorem exists_ok_of_bind (hl : OnlyLooks host) {a : Action α} (ha : a.program.Only Looks) {k : α → Action β} {y : β}
    (h : ((a >>= k).program.run host s).result = .ok y) :
    ∃ x, (a.program.run host s).result = .ok x ∧ ((k x).program.run host s).result = .ok y := by
  cases hr : (a.program.run host s).result with
  | ok x =>
    have hfinal := ((ensures_of_looks hl ha s).of_ok hr).2
    rw [Action.result_bind_of_ok hr, hfinal] at h
    exact ⟨x, rfl, h⟩
  | error err =>
    rw [Action.result_bind_of_error hr] at h
    cases h

/-- A call of two actions, of which the first only looks. -/
theorem mem_steps_bind_of_looks (hl : OnlyLooks host) {a : Action α} (ha : a.program.Only Looks) {k : α → Action β}
    {st : Step σ} (h : st ∈ ((a >>= k).program.run host s).steps) :
    st ∈ (a.program.run host s).steps ∨
      ∃ x, (a.program.run host s).result = .ok x ∧ st ∈ ((k x).program.run host s).steps := by
  rcases Action.mem_steps_bind h with h | ⟨x, hx, h⟩
  · exact Or.inl h
  · have hfinal := ((ensures_of_looks hl ha s).of_ok hx).2
    exact Or.inr ⟨x, hx, by rwa [hfinal] at h⟩

/-- The dry run only looks, and where it gives up, the other action does so with the same root; neither changes
anything. -/
structure FailsAlike (host : Host σ) (dry : Action String) (act : Action α) (s : σ) : Prop where
  looks : ∀ st ∈ (dry.program.run host s).steps, st.call.isMutation = false
  unchanged : ∀ s' ∈ (dry.program.run host s).states s, s' = s
  fails : ∀ err, (dry.program.run host s).result = .error err →
    (∃ err', (act.program.run host s).result = .error err' ∧ err'.root = err.root) ∧
      ∀ s' ∈ (act.program.run host s).states s, s' = s

theorem failsAlike_of_looks (hl : OnlyLooks host) {dry : Action String} {act : Action α} (hd : dry.program.Only Looks)
    (h : ∀ err, (dry.program.run host s).result = .error err → FailsWith host err.root act s) :
    FailsAlike host dry act s where
  looks := hd.mem_steps s
  unchanged := (ensures_of_looks hl hd s).mem_states rfl (fun _ _ h => h.2) fun _ _ h => h.2
  fails := fun err hr => (h err hr).result

/-- After the same looking, what fails alike still does. -/
theorem failsWith_bind_bind (hl : OnlyLooks host) {a : Action β} (ha : a.program.Only Looks) {dry : β → Action String}
    {act : β → Action α}
    (h : ∀ x err, ((dry x).program.run host s).result = .error err → FailsWith host err.root (act x) s)
    (err : PolicyError) (hr : ((a >>= dry).program.run host s).result = .error err) :
    FailsWith host err.root (a >>= act) s := by
  cases hx : (a.program.run host s).result with
  | ok x =>
    have hfinal := ((ensures_of_looks hl ha s).of_ok hx).2
    rw [Action.result_bind_of_ok hx, hfinal] at hr
    exact (h x err hr).after hl ha hx
  | error err' =>
    rw [Action.result_bind_of_error hx] at hr
    cases hr
    exact (failsWith_of_looks hl ha hx).bind act

end Failing

/-! ## Foretelling -/

section Foretelling

variable {σ α β : Type} {host : Host σ} {read : HostPath → σ → Option ByteArray} {s : σ} {ts : Targets}

/-- A text tells, under a line for each target, what the target holds. -/
def Targets.ToldBy (ts : Targets) (read : HostPath → σ → Option ByteArray) (printed : String) (s : σ) : Prop :=
  ∃ rules authorization, printed = "==> " ++ ts.rules.text ++ "\n" ++ rules ++
      ("==> " ++ ts.authorization.text ++ "\n" ++ authorization) ∧
    Tells rules (read ts.rules s) ∧ Tells authorization (read ts.authorization s)

/-- Besides failing alike, a dry run that succeeds tells what the other action, where it succeeds, leaves at the
targets. -/
structure Foretells (host : Host σ) (read : HostPath → σ → Option ByteArray) (ts : Targets) (dry : Action String)
    (act : Action α) (s : σ) : Prop extends FailsAlike host dry act s where
  tells : ∀ printed x, (dry.program.run host s).result = .ok printed → (act.program.run host s).result = .ok x →
    ts.ToldBy read printed (act.program.run host s).final

/-- What installations and removals leave at the targets, where they succeed. -/
structure Installs (host : Host σ) (read : HostPath → σ → Option ByteArray) (ts : Targets) (s : σ) : Prop where
  commit : ∀ policy : CompiledPolicy, (commit ts policy).Achieves host (fun _ s' =>
    ts.Hold read (some policy.renderRules.toUTF8) (policy.authorization.render?.map String.toUTF8) s') s
  removeAll : (removeAll ts).Achieves host (fun _ s' => ts.Hold read none none s') s

/-- What is printed is as long as the files that it tells of. -/
theorem Tells.utf8ByteSize_eq {printed : String} {file? : Option ByteArray} (h : Tells printed file?) :
    printed.utf8ByteSize = (file?.map ByteArray.size).getD 10 := by
  cases hfile : file? with
  | none =>
    rw [h.removed.mpr hfile]
    decide +kernel
  | some c => exact congrArg ByteArray.size (h.contents c hfile)

theorem Targets.ToldBy.utf8ByteSize_eq {printed : String} (h : ts.ToldBy read printed s) :
    printed.utf8ByteSize = 10 + ts.rules.text.utf8ByteSize + ts.authorization.text.utf8ByteSize +
      ((read ts.rules s).map ByteArray.size).getD 10 + ((read ts.authorization s).map ByteArray.size).getD 10 := by
  obtain ⟨rules, authorization, rfl, hrules, hauthorization⟩ := h
  have hmark : "==> ".utf8ByteSize = 4 := by decide +kernel
  have hline : "\n".utf8ByteSize = 1 := by decide +kernel
  simp only [String.utf8ByteSize_append, ← hrules.utf8ByteSize_eq, ← hauthorization.utf8ByteSize_eq, hmark, hline]
  omega

theorem toldBy_of_hold (rules? authorization? : Option String)
    (hr : ∀ text, rules? = some text → ∃ rest, text = generatedHeader ++ rest)
    (ha : ∀ text, authorization? = some text → ∃ rest, text = generatedHeader ++ rest)
    (h : ts.Hold read (rules?.map String.toUTF8) (authorization?.map String.toUTF8) s) :
    ts.ToldBy read (listing ts.rules rules? ++ listing ts.authorization authorization?) s := by
  obtain ⟨hrules, hauthorization⟩ := h
  refine ⟨rules?.getD "(removed)\n", authorization?.getD "(removed)\n", rfl, ?_, ?_⟩
  · rw [hrules]
    exact tells_of_generated hr
  · rw [hauthorization]
    exact tells_of_generated ha

theorem exists_generatedHeader_of_render? {a : Authorization} {text : String} (h : a.render? = some text) :
    ∃ rest, text = generatedHeader ++ rest := by
  obtain ⟨ids, -, rfl⟩ := Option.map_eq_some_iff.mp h
  exact ⟨"[" ++ Authorization.sectionName ++ "]\n" ++ Authorization.keyName ++ "=" ++ ids ++ "\n", by
    simp only [String.append_assoc]⟩

namespace Enforcer

variable (e : Enforcer) (object : String) (entries : List Entry)

theorem only_preview : (preview e entries).program.Only Looks :=
  Action.only_ite (Action.only_pure _)
    (Action.only_bind (e.only_compile (fun _ h => h) entries) fun _ => Action.only_pure _)

/-- Where the dry run gives up, so does an application, with the same root. -/
theorem failsWith_of_preview (hl : OnlyLooks host) (err : PolicyError)
    (hr : ((preview e entries).program.run host s).result = .error err) :
    FailsWith host err.root (e.apply object true entries) s := by
  unfold preview at hr
  split at hr
  · cases hr
  rename_i hne
  -- the policy is compiled first on both sides, and nothing fails after that in the dry run
  have hcompile : FailsWith host err.root (do
      let policy ← e.compile entries
      let outcome ← commit e.targets policy
      Action.emit (.appliedPolicy object policy.blocks.length (outcome = .written))) s :=
    failsWith_bind_bind hl (e.only_compile (fun _ h => h) entries) (fun _ _ h => by cases h) err hr
  refine e.ensures_apply_of_enforce (E := fun err' s' => s' = s ∧ err'.root = err.root) ?_ fun _ _ h => h
  unfold enforce
  refine FailsWith.after hl (Action.only_emit _) (x := ()) rfl ?_
  rw [if_neg hne]
  exact hcompile

/-- Without entries, the dry run tells what a successful removal leaves. -/
theorem achieves_toldBy_nil (hr : (removeAll e.targets).Achieves host (fun _ s' => e.targets.Hold read none none s') s)
    (event : Event) : (do removeAll e.targets; Action.emit event).Achieves host (fun _ s' =>
      e.targets.ToldBy read (listing e.targets.rules none ++ listing e.targets.authorization none) s') s :=
  Action.ensures_bind hr fun _ _ h => Action.ensures_emit (toldBy_of_hold none none nofun nofun h)

/-- Where the dry run succeeds, it tells what a successful application leaves. -/
theorem achieves_toldBy (hl : OnlyLooks host) (hi : Installs host read e.targets s) {printed : String}
    (hr : ((preview e entries).program.run host s).result = .ok printed) :
    (e.apply object true entries).Achieves host (fun _ s' => e.targets.ToldBy read printed s') s := by
  refine e.ensures_apply_of_enforce (E := fun _ _ => True) ?_ fun _ _ h => h
  unfold enforce
  refine Action.ensures_bind (R := fun _ s' => s' = s) (Action.ensures_emit rfl) fun _ s' hs' => ?_
  subst hs'
  unfold preview at hr
  refine Action.ensures_ite (fun hempty => ?_) fun hne => ?_
  · rw [if_pos hempty] at hr
    obtain rfl := Except.ok.inj hr
    exact e.achieves_toldBy_nil hi.removeAll _
  · rw [if_neg hne] at hr
    have honly := e.only_compile (P := Looks) (fun _ h => h) entries
    obtain ⟨policy, hpolicy, hr⟩ := exists_ok_of_bind hl honly hr
    obtain rfl := Except.ok.inj hr
    refine Action.ensures_bind ((ensures_of_looks hl honly s').mono (fun _ _ => trivial) (fun _ _ h => h)
      fun _ _ _ => trivial) fun policy' s₁ h₁ => ?_
    obtain ⟨hpolicy', rfl⟩ := h₁
    obtain rfl : policy = policy' := Except.ok.inj (hpolicy.symm.trans hpolicy')
    refine Action.ensures_bind (hi.commit policy) fun _ s₂ h₂ => Action.ensures_emit ?_
    exact toldBy_of_hold (some policy.renderRules) policy.authorization.render?
      (fun text h => ⟨_, (Option.some.inj h).symm⟩) (fun text h => exists_generatedHeader_of_render? h) h₂

end Enforcer

end Foretelling

/-! ## Policies from documents -/

namespace PolicyDocument

open Program

theorem only_load (path : HostPath) : (load path).program.Only fun c => c = .readText path := by
  refine only_request rfl fun a => ?_
  cases a with
  | error _ => exact only_done _
  | ok source =>
    refine Only.bind ?_ fun r => ?_
    · unfold parse
      split
      · exact only_done _
      · exact (only_emitAll _).bind fun _ => only_done _
    · cases r with
      | ok es => exact only_report (only_done _)
      | error _ => exact only_done _

theorem only_load_looks (path : HostPath) : (load path).program.Only Looks :=
  (only_load path).mono fun _ hc => hc ▸ rfl

end PolicyDocument

/-! ## All dry runs -/

namespace Enforcer

variable {σ : Type}

/-- On this state, dry runs fail as applying to a computer does, be the policy given as entries or by a document. -/
structure DryRunsFailAlike (e : Enforcer) (host : Host σ) (s : σ) : Prop where
  entries : ∀ object entries, FailsAlike host (preview e entries) (e.apply object true entries) s
  command : ∀ object policy,
    FailsAlike host ((Command.compile policy).execute e) ((Command.apply object .computer policy).execute e) s

/-- On this state, dry runs foretell what applying to a computer leaves at the targets. -/
structure DryRunsForetell (e : Enforcer) (host : Host σ) (read : HostPath → σ → Option ByteArray) (s : σ) : Prop where
  entries : ∀ object entries, Foretells host read e.targets (preview e entries) (e.apply object true entries) s
  command : ∀ object policy, Foretells host read e.targets ((Command.compile policy).execute e)
    ((Command.apply object .computer policy).execute e) s

/-- Without entries no fragment is read: beyond the document of the policy, a dry run looks at nothing, and applying
asks for the two removals alone. -/
structure SkipsFragments (e : Enforcer) (host : Host σ) (s : σ) : Prop where
  preview : ((preview e []).program.run host s).steps = []
  apply : ∀ object, ∀ st ∈ ((e.apply object true []).program.run host s).steps,
    st.call = .removeFile e.targets.rules ∨ st.call = .removeFile e.targets.authorization
  compileCommand : ∀ policy, ((PolicyDocument.load policy).program.run host s).result = .ok [] →
    ∀ st ∈ (((Command.compile policy).execute e).program.run host s).steps, st.call = .readText policy
  applyCommand : ∀ object policy, ((PolicyDocument.load policy).program.run host s).result = .ok [] →
    ∀ st ∈ (((Command.apply object .computer policy).execute e).program.run host s).steps, st.call = .readText policy ∨
      st.call = .removeFile e.targets.rules ∨ st.call = .removeFile e.targets.authorization

variable {host : Host σ} {read : HostPath → σ → Option ByteArray} {s : σ} (e : Enforcer)

theorem dryRunsFailAlike (hl : OnlyLooks host) (s : σ) : e.DryRunsFailAlike host s where
  entries := fun object entries =>
    failsAlike_of_looks hl (e.only_preview entries) (e.failsWith_of_preview object entries hl)
  command := fun object policy => by
    have honly := PolicyDocument.only_load_looks policy
    refine failsAlike_of_looks hl (Action.only_bind honly e.only_preview) ?_
    exact failsWith_bind_bind hl honly fun entries err hr =>
      (e.failsWith_of_preview object entries hl err hr).bind fun _ => pure ""

theorem dryRunsForetell (hl : OnlyLooks host) (hi : Installs host read e.targets s) :
    e.DryRunsForetell host read s where
  entries := fun object entries => by
    refine ⟨(e.dryRunsFailAlike hl s).entries object entries, fun printed x hdry hact => ?_⟩
    exact (e.achieves_toldBy object entries hl hi hdry).of_ok hact
  command := fun object policy => by
    refine ⟨(e.dryRunsFailAlike hl s).command object policy, fun printed x hdry hact => ?_⟩
    have honly := PolicyDocument.only_load_looks policy
    obtain ⟨entries, hload, hpreview⟩ := exists_ok_of_bind hl honly hdry
    -- applying starts from what the same reading returns
    have happly : ((Command.apply object .computer policy).execute e).Achieves host
        (fun _ s' => e.targets.ToldBy read printed s') s := by
      refine Action.ensures_bind ((ensures_of_looks hl honly s).mono (fun _ _ => trivial) (fun _ _ h => h)
        fun _ _ _ => trivial) fun entries' s₁ h₁ => ?_
      obtain ⟨hload', rfl⟩ := h₁
      obtain rfl : entries = entries' := Except.ok.inj (hload.symm.trans hload')
      exact Action.ensures_bind (e.achieves_toldBy object entries hl hi hpreview) fun _ _ h => Action.ensures_pure h
    exact happly.of_ok hact

/-- Without entries a dry run foretells what a removal comes to. -/
theorem foretells_nil (hl : OnlyLooks host)
    (hr : (removeAll e.targets).Achieves host (fun _ s' => e.targets.Hold read none none s') s) (object : String) :
    Foretells host read e.targets (preview e []) (e.apply object true []) s := by
  refine ⟨(e.dryRunsFailAlike hl s).entries object [], fun printed x hdry hact => ?_⟩
  obtain rfl := Except.ok.inj hdry
  have happly : (e.apply object true []).Achieves host (fun _ s' =>
      e.targets.ToldBy read (listing e.targets.rules none ++ listing e.targets.authorization none) s') s := by
    refine e.ensures_apply_of_enforce (E := fun _ _ => True) ?_ fun _ _ h => h
    exact Action.ensures_bind (R := fun _ s' => s' = s) (Action.ensures_emit rfl) fun _ s' hs' =>
      hs' ▸ e.achieves_toldBy_nil hr _
  exact happly.of_ok hact

theorem skipsFragments (host : Host σ) (s : σ) : e.SkipsFragments host s where
  preview := rfl
  apply := fun object => (e.only_apply_nil object true).mem_steps s
  compileCommand := by
    intro policy hload st hst
    simp only [Command.execute, Action.steps_bind_of_ok hload] at hst
    rcases List.mem_append.mp hst with hst | hst
    · exact (PolicyDocument.only_load policy).mem_steps s st hst
    · exact absurd hst List.not_mem_nil
  applyCommand := by
    intro object policy hload st hst
    simp only [Command.execute, Action.steps_bind_of_ok hload] at hst
    rcases List.mem_append.mp hst with hst | hst
    · exact Or.inl ((PolicyDocument.only_load policy).mem_steps s st hst)
    · have honly := Action.only_bind (k := fun _ => pure "") (e.only_apply_nil object true) fun _ => Action.only_pure _
      exact Or.inr (honly.mem_steps _ st hst)

end Enforcer

/-! ## In memory and on a POSIX file system -/

/-- The contents of the file at a path, if there is one. -/
def Memory.contentsAt? (p : HostPath) (t : Memory.Tree) : Option ByteArray := (t.file? p).map Prod.fst

namespace Enforcer

open Memory

variable (e : Enforcer)

theorem onlyLooks_memory : OnlyLooks Memory.host := fun _ t hc => backed_host.tree_of_not_isMutation hc t

theorem installs_memory (t : Tree) : Installs Memory.host contentsAt? e.targets t where
  commit := by
    intro policy
    refine (ensures_commit backed_host reportsAbsence_host e.apart_targets policy t).mono (fun _ _ => trivial)
      (fun _ t' h => ?_) fun _ _ _ => trivial
    have hfiles := h.files_eq
    refine ⟨?_, ?_⟩
    · exact congrArg (fun files : TargetFiles => files.rules.map Prod.fst) hfiles
    · refine (congrArg (fun files : TargetFiles => files.authorization.map Prod.fst) hfiles).trans ?_
      simp only [CompiledPolicy.files, Option.map_map]
      rfl
  removeAll := by
    refine (ensures_removeAll backed_host reportsAbsence_host e.apart_targets t).mono (fun _ _ => trivial)
      (fun _ t' h => ?_) fun _ _ _ => trivial
    obtain ⟨hrules, hauthorization⟩ : t'.lookup e.targets.rules = none ∧ t'.lookup e.targets.authorization = none := h
    refine ⟨?_, ?_⟩
    · rw [contentsAt?, Tree.file?_of_none hrules]
      rfl
    · rw [contentsAt?, Tree.file?_of_none hauthorization]
      rfl

theorem installs_posix {s : Posix.State} (hu : s.Untangled e) : Installs Posix.host Posix.fileAt? e.targets s where
  commit := fun policy => Posix.achieves_commit e policy hu
  removeAll := Posix.achieves_removeAll e hu.workingDirectory

/-- **The dry run tells the truth.** In memory, whatever the tree, a dry run only looks. If it gives up, applying to a
computer gives up with the same root and nothing changes at any point; if both succeed, the dry run has printed for
each target the contents that applying leaves there, and `(removed)` exactly if it leaves no file. On a POSIX file
system failing alike takes no condition. Telling what is left takes a working directory, and for entries that an
installation does not get into its own way. Without entries neither reads any fragment. -/
theorem preview_foretells :
    (∀ t : Tree, e.DryRunsForetell Memory.host contentsAt? t) ∧
      (∀ s : Posix.State, e.DryRunsFailAlike Posix.host s) ∧
      (∀ s : Posix.State, s.Untangled e → e.DryRunsForetell Posix.host Posix.fileAt? s) ∧
      (∀ s : Posix.State, s.Reached s.workingDirectory → ∀ object,
        Foretells Posix.host Posix.fileAt? e.targets (preview e []) (e.apply object true []) s) ∧
      (∀ t : Tree, e.SkipsFragments Memory.host t) ∧ ∀ s : Posix.State, e.SkipsFragments Posix.host s := by
  have hposix : OnlyLooks Posix.host := fun _ s hc => Posix.host_of_not_isMutation hc s
  refine ⟨fun t => ?_, fun s => ?_, fun s hu => ?_, fun s hwd object => ?_, fun t => ?_, fun s => ?_⟩
  · exact e.dryRunsForetell onlyLooks_memory (e.installs_memory t)
  · exact e.dryRunsFailAlike hposix s
  · exact e.dryRunsForetell hposix (e.installs_posix hu)
  · exact e.foretells_nil hposix (Posix.achieves_removeAll e hwd) object
  · exact e.skipsFragments Memory.host t
  · exact e.skipsFragments Posix.host s

/-- A host with a fragment of others. The polkit directory is a link, and so are the rules, to a file of which stale
staged rules are another name. -/
def usedState : Posix.State where
  bindings :=
    [(["etc"], .directory 0o755), (["etc", "sudoers.d"], .directory 0o755),
      (["etc", "sudoers.d", "99-privguard-privilege-enforcement"], .inode 1),
      (["etc", "sudoers.d", "99-privguard-privilege-enforcement.new"], .inode 2), (["etc", "polkit-1"], .inode 3),
      (["srv"], .directory 0o755), (["srv", "rules"], .inode 2), (["srv", "polkit"], .directory 0o755),
      (["srv", "polkit", "localauthority.conf.d"], .directory 0o755),
      (["srv", "polkit", "localauthority.conf.d", "50-site.conf"], .inode 4)]
  inodes
    | 1 => .link "../../srv/rules"
    | 2 => .file "bob ALL=(ALL:ALL) ALL\n".toUTF8 0o600
    | 3 => .link "../srv/polkit"
    | _ => .file "[Configuration]\nAdminIdentities=unix-group:wheel\n".toUTF8 0o644

/-- There both succeed. -/
theorem preview_foretells_usedState :
    let e := Enforcer.of ⟨""⟩ ⟨""⟩
    let entries := [⟨.clientAdmins, "alice", false⟩]
    usedState.Untangled e ∧ e.DryRunsForetell Posix.host Posix.fileAt? usedState ∧
      Foretells Posix.host Posix.fileAt? e.targets (preview e []) (e.apply "HOST" true []) usedState ∧
      ((preview e entries).program.run Posix.host usedState).result.toOption.isSome = true ∧
      ((e.apply "HOST" true entries).program.run Posix.host usedState).result = .ok () := by
  have hwd : usedState.Reached usedState.workingDirectory := usedState.reached_nil
  have hu : usedState.Untangled (Enforcer.of ⟨""⟩ ⟨""⟩) :=
    ⟨hwd, by decide +kernel, by decide +kernel, by decide +kernel⟩
  have h := preview_foretells (Enforcer.of ⟨""⟩ ⟨""⟩)
  exact ⟨hu, h.2.2.1 usedState hu, h.2.2.2.1 usedState hwd "HOST", by decide +kernel, by decide +kernel⟩

/-! ## What gets into its own way -/

/-- Where both succeed and what is printed is not as long as what is left, nothing is foretold. -/
theorem not_dryRunsForetell_of_size {s : Posix.State} (object : String) (entries : List Entry) (size : Nat)
    (hdry : ((preview e entries).program.run Posix.host s).result.toOption.map String.utf8ByteSize = some size)
    (hact : ((e.apply object true entries).program.run Posix.host s).result = .ok ())
    (hsize : let left := ((e.apply object true entries).program.run Posix.host s).final
      size ≠ 10 + e.targets.rules.text.utf8ByteSize + e.targets.authorization.text.utf8ByteSize +
        ((Posix.fileAt? e.targets.rules left).map ByteArray.size).getD 10 +
        ((Posix.fileAt? e.targets.authorization left).map ByteArray.size).getD 10) :
    ¬ e.DryRunsForetell Posix.host Posix.fileAt? s := by
  intro h
  cases hprinted : ((preview e entries).program.run Posix.host s).result with
  | error err =>
    rw [hprinted] at hdry
    cases hdry
  | ok printed =>
    rw [hprinted] at hdry
    have htold := (h.entries object entries).tells printed () hprinted hact
    exact hsize ((Option.some.inj hdry).symm.trans htold.utf8ByteSize_eq)

/-- A link bears the temporary name of the document, and leads to the temporary place of the rules. -/
def linkedState : Posix.State where
  bindings :=
    [(["s"], .directory 0o755), (["p"], .directory 0o755), (["p", "localauthority.conf.d"], .directory 0o755),
      (["p", "localauthority.conf.d", "99-privguard-privilege-enforcement.conf.new"], .inode 1)]
  inodes _ := .link "../../s/99-privguard-privilege-enforcement.new"

/-- **Through a link the document takes the place of the rules**, and its own place holds a link that leads nowhere,
though the dry run has printed both. -/
theorem not_foretells_linkedState :
    ¬ (Enforcer.of ⟨"/s"⟩ ⟨"/p"⟩).DryRunsForetell Posix.host Posix.fileAt? linkedState :=
  not_dryRunsForetell_of_size _ "HOST" [⟨.allowLocalAdmins, "", true⟩] 406 (by decide +kernel) (by decide +kernel)
    (by decide +kernel)

/-- Both temporary names stand for one inode. -/
def sharedState : Posix.State where
  bindings :=
    [(["s"], .directory 0o755), (["s", "99-privguard-privilege-enforcement.new"], .inode 1), (["p"], .directory 0o755),
      (["p", "localauthority.conf.d"], .directory 0o755),
      (["p", "localauthority.conf.d", "99-privguard-privilege-enforcement.conf.new"], .inode 1)]

/-- **In one inode the document overwrites the rules**: both targets hold the document. -/
theorem not_foretells_sharedState :
    ¬ (Enforcer.of ⟨"/s"⟩ ⟨"/p"⟩).DryRunsForetell Posix.host Posix.fileAt? sharedState :=
  not_dryRunsForetell_of_size _ "HOST" [⟨.allowLocalAdmins, "", true⟩] 406 (by decide +kernel) (by decide +kernel)
    (by decide +kernel)

end Enforcer

end AdminPolicy
