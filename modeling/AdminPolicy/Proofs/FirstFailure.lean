import AdminPolicy.Host.Faults
import AdminPolicy.Proofs.Targets
import AdminPolicy.Proofs.Trace

/-!
# The first failure

An enforcement stops at the first thing that goes wrong and reports it. What goes wrong is read off an exchange alone
(`Enforcer.cause?`): a call that failed is a cause with its own operation, path and error, and so is a fragment that was
read and is no key file. Two failures are none: there may be no directory of fragments, and a file that is to be removed
may be gone already. The run goes on up to the first cause and ends there with it, but for the staged rules, which are
given up when the document cannot be staged (`Enforcer.apply_firstFailure`).
-/

namespace AdminPolicy

/-- What a call attempts. -/
def HostCall.operation : HostCall → FileOperation
  | createDirAll .. => .createDirectory
  | writeFile .. => .write
  | rename .. => .rename
  | removeFile _ => .remove
  | readText _ => .read
  | listDir _ => .list
  | isDir _ => .stat

/-- Whether a call writes the file at a path. -/
def HostCall.writes (p : HostPath) : HostCall → Bool
  | writeFile q .. => q = p
  | _ => false

namespace Targets

open Installation

variable (ts : Targets)

/-- Whether the rules have been written. -/
def rulesWritten (xs : List Exchange) : Bool := xs.any fun x => x.call.writes (temporary ts.rules)

/-- Whether a call stages the document, by what happened before it: it writes the document, or it makes the directory of
the document once the rules have been written. -/
def stagesDocument (before : List Exchange) : HostCall → Bool
  | .createDirAll p _ => ts.authorization.parent? = some p && ts.rulesWritten before
  | .writeFile p .. => p = temporary ts.authorization
  | _ => false

/-- The calls behind the one that failed. -/
def callsAfter (before : List Exchange) (c : HostCall) : List HostCall :=
  if ts.stagesDocument before c then [.removeFile (temporary ts.rules)] else []

end Targets

namespace Enforcer

open Fragments Installation

variable (e : Enforcer)

/-- Whether it is fine that a call finds nothing. -/
def mayMiss : HostCall → Bool
  | .listDir p => p = e.fragmentDirectory
  | .removeFile p => p = e.targets.rules || p = e.targets.authorization
  | _ => false

/-- What went wrong with a call. -/
def cause? : Exchange → Option PolicyError
  | ⟨c, .error err⟩ => if e.mayMiss c && err.kind = .notFound then none else some (.io c.operation c.path err)
  | ⟨.readText p, .ok text⟩ =>
    match KeyFile.parse text with
    | .error f => some (.fragmentParse p f.line f.fault.message)
    | .ok _ => none
  | _ => none

/-- Nothing went wrong. -/
def Untroubled (xs : List Exchange) : Prop := ∀ x ∈ xs, e.cause? x = none

/-- The first thing that went wrong is `cause`, and it was the end. -/
def StoppedBy (cause : PolicyError) (xs : List Exchange) : Prop :=
  ∃ before x after, xs = before ++ x :: after ∧ e.Untroubled before ∧ e.cause? x = some cause ∧
    after.map Exchange.call = e.targets.callsAfter before x.call

variable {e} {xs : List Exchange}

theorem untroubled_nil : e.Untroubled [] := fun _ hx => absurd hx List.not_mem_nil

theorem Untroubled.concat {x : Exchange} (h : e.Untroubled xs) (hx : e.cause? x = none) : e.Untroubled (xs ++ [x]) := by
  intro y hy
  rcases List.mem_append.mp hy with hy | hy
  · exact h y hy
  · exact List.mem_singleton.mp hy ▸ hx

/-- A call that may not miss fails for good. -/
theorem cause?_error {c : HostCall} (h : e.mayMiss c = false) (err : IoError) :
    e.cause? ⟨c, .error err⟩ = some (.io c.operation c.path err) := by
  simp [cause?, h]

theorem cause?_of_notFound {c : HostCall} (h : e.mayMiss c = true) {err : IoError} (hk : err.kind = .notFound) :
    e.cause? ⟨c, .error err⟩ = none := by
  simp [cause?, h, hk]

theorem cause?_of_ne_notFound (c : HostCall) {err : IoError} (hk : err.kind ≠ .notFound) :
    e.cause? ⟨c, .error err⟩ = some (.io c.operation c.path err) := by
  simp [cause?, hk]

/-- A cause behind which nothing is to be given up. -/
theorem stoppedBy_concat {x : Exchange} {cause : PolicyError} (h : e.Untroubled xs) (hx : e.cause? x = some cause)
    (hs : e.targets.stagesDocument xs x.call = false) : e.StoppedBy cause (xs ++ [x]) :=
  ⟨xs, x, [], rfl, h, hx, by simp [Targets.callsAfter, hs]⟩

/-- A single call. -/
theorem traces_attempt {c : HostCall} {Q : c.Reply → List Exchange → Prop} (h : e.Untroubled xs)
    (hm : e.mayMiss c = false) (hs : e.targets.stagesDocument xs c = false) (hQ : ∀ r, Q r (xs ++ [⟨c, .ok r⟩])) :
    (Action.attempt c.operation c.path c).Traces Q e.StoppedBy xs :=
  Action.traces_attempt hQ fun err => stoppedBy_concat h (cause?_error hm err) hs

/-! ## Reading -/

/-- Nothing went wrong so far, and the rules have not been written. -/
structure Looked (e : Enforcer) (xs : List Exchange) : Prop where
  untroubled : e.Untroubled xs
  unwritten : e.targets.rulesWritten xs = false

theorem Looked.concat {x : Exchange} (h : e.Looked xs) (hx : e.cause? x = none) (hc : x.call.isMutation = false) :
    e.Looked (xs ++ [x]) := by
  refine ⟨h.untroubled.concat hx, ?_⟩
  obtain ⟨c, a⟩ := x
  have hw : c.writes (temporary e.targets.rules) = false := by
    cases c <;> first | rfl | cases hc
  simpa [Targets.rulesWritten, hw] using h.unwritten

/-- A fragment that was read is parsed: what is wrong with it is wrong with the call that read it. -/
theorem traces_parse (path : HostPath) (source : String) (h : e.Looked xs) :
    (parse path source).Traces (fun _ ys => e.Looked ys) e.StoppedBy (xs ++ [⟨.readText path, .ok source⟩]) := by
  unfold parse
  cases hp : KeyFile.parse source with
  | ok file => exact Action.traces_pure (h.concat (by simp [cause?, hp]) rfl)
  | error f => exact Action.traces_fail (stoppedBy_concat h.untroubled (by simp [cause?, hp]) rfl)

theorem traces_layerAll (dir : HostPath) (names : List String) (value : String) (h : e.Looked xs) :
    (layerAll dir value names).Traces (fun _ ys => e.Looked ys) e.StoppedBy xs := by
  induction names generalizing value xs with
  | nil => exact Action.traces_pure h
  | cons n names ih =>
    unfold layerAll
    refine Action.traces_bind (Q := fun _ ys => e.Looked ys)
      (traces_attempt (c := .isDir (dir.join n)) h.untroubled rfl rfl fun r => h.concat rfl rfl) fun isDir ys hys => ?_
    refine Action.traces_ite (fun _ => ?_) fun _ => ?_
    · exact Action.traces_emit_bind (ih value hys)
    · refine Action.traces_bind (Q := fun source zs => zs = ys ++ [⟨.readText (dir.join n), .ok source⟩])
        (traces_attempt (c := .readText (dir.join n)) hys.untroubled rfl rfl fun r => rfl) fun source zs hzs => ?_
      subst hzs
      exact Action.traces_bind (traces_parse (dir.join n) source hys) fun file zs hzs => ih _ hzs

/-- Reading the fragments of others stops at the first call that fails and at the first fragment that is no key file. -/
theorem traces_systemAdmins (h : e.Looked xs) :
    (systemAdmins e.fragmentDirectory).Traces (fun _ ys => e.Looked ys) e.StoppedBy xs := by
  refine Program.traces_request fun a => ?_
  cases a with
  | ok names => exact traces_layerAll _ _ _ (h.concat rfl rfl)
  | error err =>
    by_cases hk : err.kind = .notFound
    · simp only [hk, ↓reduceIte]
      exact Program.traces_report (Program.traces_done (h.concat (cause?_of_notFound (by simp [mayMiss]) hk) rfl))
    · simp only [hk, ↓reduceIte]
      exact Program.traces_done (stoppedBy_concat h.untroubled (cause?_of_ne_notFound _ hk) rfl)

/-- Compiling makes no calls but those of reading. -/
theorem traces_compile (entries : List Entry) (h : e.Looked xs) :
    (e.compile entries).Traces (fun _ ys => e.Looked ys) e.StoppedBy xs := by
  refine Action.traces_bind (traces_systemAdmins h) fun system ys hys => ?_
  exact Program.Traces.bind (Program.traces_emitAll (R := fun _ zs => zs = ys) rfl _) fun _ zs hzs =>
    Program.traces_done (hzs ▸ hys)

/-! ## Installing -/

/-- A file that may be gone is removed. -/
theorem traces_removeIfExists {p : HostPath} (hp : e.mayMiss (.removeFile p) = true) (h : e.Untroubled xs) :
    (removeIfExists p).Traces (fun _ ys => e.Untroubled ys) e.StoppedBy xs := by
  refine Program.traces_request fun a => ?_
  cases a with
  | ok _ => exact Program.traces_report (Program.traces_done (h.concat rfl))
  | error err =>
    by_cases hk : err.kind = .notFound
    · simp only [hk, ↓reduceIte]
      exact Program.traces_done (h.concat (cause?_of_notFound hp hk))
    · simp only [hk, ↓reduceIte]
      exact Program.traces_done (stoppedBy_concat h (cause?_of_ne_notFound _ hk) rfl)

theorem traces_removeAll (h : e.Untroubled xs) :
    (removeAll e.targets).Traces (fun _ ys => e.Untroubled ys) e.StoppedBy xs := by
  refine Action.traces_bind (traces_removeIfExists (by simp [mayMiss]) h) fun _ ys hys => ?_
  exact traces_removeIfExists (by simp [mayMiss]) hys

theorem traces_install (p : HostPath) (h : e.Untroubled xs) :
    (install p).Traces (fun _ ys => e.Untroubled ys) e.StoppedBy xs :=
  traces_attempt (c := .rename (temporary p) p) h rfl rfl fun _ => h.concat rfl

/-- Staging a file, whatever its failure comes to: the last call wrote it. -/
theorem traces_stage {E : PolicyError → List Exchange → Prop} {p : HostPath} {contents : String} {mode : Mode}
    (h : e.Untroubled xs)
    (hdir : ∀ parent err, p.parent? = some parent →
      E (.io .createDirectory parent err) (xs ++ [⟨.createDirAll parent directoryMode, .error err⟩]))
    (hwrite : ∀ ys err, e.Untroubled ys → E (.io .write (temporary p) err)
      (ys ++ [⟨.writeFile (temporary p) contents.toUTF8 mode, .error err⟩])) :
    (stage p contents mode).Traces
      (fun _ ys => ∃ zs r, e.Untroubled zs ∧ ys = zs ++ [⟨.writeFile (temporary p) contents.toUTF8 mode, .ok r⟩])
      E xs := by
  have hparent : (ensureParent p).Traces (fun _ ys => e.Untroubled ys) E xs := by
    unfold ensureParent
    split
    · rename_i parent hp
      refine Action.traces_ite (fun _ => Action.traces_pure h) fun _ => ?_
      exact Action.traces_attempt (fun r => h.concat rfl) fun err => hdir parent err hp
    · exact Action.traces_pure h
  refine Action.traces_bind hparent fun _ ys hys => ?_
  exact Action.traces_attempt (fun r => ⟨ys, r, hys, rfl⟩) fun err => hwrite ys err hys

/-- Staging the rules. Until they are written, a failure leaves nothing to give up. -/
theorem traces_stageRules (contents : String) (mode : Mode) (h : e.Looked xs) :
    (stage e.targets.rules contents mode).Traces
      (fun _ ys => e.Untroubled ys ∧ e.targets.rulesWritten ys = true) e.StoppedBy xs := by
  have hapart : temporary e.targets.rules ≠ temporary e.targets.authorization := fun hsame =>
    e.apart_targets.temporary_temporary (congrArg HostPath.components hsame)
  refine (traces_stage h.untroubled (fun parent err _ => ?_) fun ys err hys => ?_).mono ?_ fun _ _ hstopped => hstopped
  · -- it may be the directory of the document, too, but the rules have not been written
    exact stoppedBy_concat h.untroubled (cause?_error rfl err) (by simp [Targets.stagesDocument, h.unwritten])
  · exact stoppedBy_concat hys (cause?_error rfl err) (by simp [Targets.stagesDocument, hapart])
  · rintro _ ys ⟨zs, r, hzs, rfl⟩
    exact ⟨hzs.concat rfl, by simp [Targets.rulesWritten, HostCall.writes]⟩

/-- Staging the document. A failure is followed by giving up the rules, however that is answered. -/
theorem traces_stageAuthorization (document : String) (h : e.Untroubled xs) (hw : e.targets.rulesWritten xs = true) :
    (stageAuthorization e.targets document).Traces (fun _ ys => e.Untroubled ys) e.StoppedBy xs := by
  have hstage : (stage e.targets.authorization document authorizationMode).Traces (fun _ ys => e.Untroubled ys)
      (fun cause ys => ∃ before x, ys = before ++ [x] ∧ e.Untroubled before ∧ e.cause? x = some cause ∧
        e.targets.stagesDocument before x.call = true) xs := by
    refine (traces_stage h (fun parent err hp => ?_) fun ys err hys => ?_).mono ?_ fun _ _ hfailed => hfailed
    · exact ⟨xs, _, rfl, h, cause?_error rfl err, by simp [Targets.stagesDocument, hp, hw]⟩
    · exact ⟨ys, _, rfl, hys, cause?_error rfl err, by simp [Targets.stagesDocument]⟩
    · rintro _ ys ⟨zs, r, hzs, rfl⟩
      exact hzs.concat rfl
  unfold stageAuthorization Action.Traces
  rw [Action.program_of]
  refine Program.Traces.bind hstage fun r ys hr => ?_
  cases r with
  | ok _ => exact Program.traces_done hr
  | error cause =>
    obtain ⟨before, x, rfl, hbefore, hx, hs⟩ := hr
    -- one more call, whose answer changes nothing
    have hdiscard : (discard e.targets.rules).Traces (fun _ zs => ∃ a, zs = before ++ [x] ++
        [⟨.removeFile (temporary e.targets.rules), a⟩]) (before ++ [x]) := by
      refine Program.traces_request fun a => ?_
      cases a with
      | ok r => exact Program.traces_done ⟨.ok r, rfl⟩
      | error err => exact Program.traces_report (Program.traces_done ⟨.error err, rfl⟩)
    refine Program.Traces.bind hdiscard fun _ zs hzs => Program.traces_done ?_
    obtain ⟨a, rfl⟩ := hzs
    exact ⟨before, x, [⟨_, a⟩], by simp, hbefore, hx, by simp [Targets.callsAfter, hs]⟩

/-- Putting both files in their places. The rules have been written when the document is staged. -/
theorem traces_commit (p : CompiledPolicy) (h : e.Looked xs) :
    (commit e.targets p).Traces (fun _ ys => e.Untroubled ys) e.StoppedBy xs := by
  refine Action.traces_bind (traces_stageRules _ _ h) fun _ ys hys => ?_
  cases p.authorization.render? with
  | some document =>
    refine Action.traces_bind (traces_stageAuthorization document hys.1 hys.2) fun _ zs hzs => ?_
    refine Action.traces_bind (traces_install _ hzs) fun _ zs hzs => Action.traces_emit_bind ?_
    refine Action.traces_bind (traces_install _ hzs) fun _ zs hzs => Action.traces_emit_bind ?_
    exact Action.traces_pure hzs
  | none =>
    refine Action.traces_bind (traces_install _ hys.1) fun _ zs hzs => Action.traces_emit_bind ?_
    exact Action.traces_bind (traces_removeIfExists (by simp [mayMiss]) hzs) fun _ zs hzs => Action.traces_pure hzs

/-! ## The whole call -/

theorem traces_enforce (object : String) (entries : List Entry) :
    (e.enforce object entries).Traces (fun _ ys => e.Untroubled ys) e.StoppedBy [] := by
  have hnil : e.Looked [] := ⟨untroubled_nil, rfl⟩
  refine Action.traces_emit_bind (Action.traces_ite (fun _ => ?_) fun _ => ?_)
  · exact Action.traces_bind (traces_removeAll hnil.untroubled) fun _ ys hys => Action.traces_emit hys
  · refine Action.traces_bind (traces_compile entries hnil) fun p ys hys => ?_
    exact Action.traces_bind (traces_commit p hys) fun _ zs hzs => Action.traces_emit hzs

theorem StoppedBy.not_untroubled {cause : PolicyError} (h : e.StoppedBy cause xs) : ¬ e.Untroubled xs := by
  obtain ⟨before, x, after, rfl, -, hx, -⟩ := h
  intro huntroubled
  rw [huntroubled x (by simp)] at hx
  cases hx

/-- No cause is a wrapper. -/
theorem cause?_ne_apply {x : Exchange} {cause : PolicyError} (h : e.cause? x = some cause) (object : String)
    (inner : PolicyError) : cause ≠ .apply object inner := by
  rintro rfl
  unfold cause? at h
  split at h
  · split at h <;> cases h
  · split at h <;> cases h
  · cases h

theorem StoppedBy.ne_apply {cause : PolicyError} (h : e.StoppedBy cause xs) (object : String) (inner : PolicyError) :
    cause ≠ .apply object inner := by
  obtain ⟨_, _, _, _, _, hx, _⟩ := h
  exact cause?_ne_apply hx object inner

/-- **The first failure is the one that is reported.** Whatever a host answers, applying entries to a computer succeeds
exactly if nothing went wrong with any of its calls. Otherwise the error names the object, and its cause is that of the
first call with which something went wrong. Behind that call there is none, unless it was to stage the document: then
the staged rules are given up, and how that is answered does not matter. -/
theorem apply_firstFailure {σ : Type} (e : Enforcer) (host : Host σ) (s : σ) (object : String) (entries : List Entry) :
    let p := (e.apply object true entries).program
    let r := p.run host s
    let xs := p.exchanges host s
    xs.map (fun x => (x.call, Program.failure? x.answer)) = r.steps.map (fun st => (st.call, st.failure?)) ∧
      (r.result = .ok () ↔ e.Untroubled xs) ∧
      ∀ err, r.result = .error err →
        ∃ cause, err = .apply object cause ∧ (∀ o c, cause ≠ .apply o c) ∧ e.StoppedBy cause xs := by
  intro p r xs
  have htraces : (e.apply object true entries).Traces (fun _ ys => e.Untroubled ys)
      (fun err ys => ∃ cause, err = .apply object cause ∧ e.StoppedBy cause ys) [] := by
    unfold Action.Traces apply
    rw [if_pos rfl, Action.program_of]
    refine Program.Traces.bind (traces_enforce object entries) fun r ys hr => ?_
    cases r with
    | ok _ => exact Program.traces_done hr
    | error cause => exact Program.traces_done ⟨cause, rfl, hr⟩
  have hrun := Program.Traces.run htraces host s
  have herror : ∀ err, r.result = .error err → ∃ cause, err = .apply object cause ∧ e.StoppedBy cause xs := by
    intro err herr
    simp only [r, p] at herr
    simpa [herr] using hrun
  refine ⟨p.map_exchanges s, ⟨fun hok => ?_, fun huntroubled => ?_⟩, fun err herr => ?_⟩
  · simp only [r, p] at hok
    simpa [hok] using hrun
  · cases hr : r.result with
    | ok _ => rfl
    | error err =>
      obtain ⟨cause, -, hstopped⟩ := herror err hr
      exact absurd huntroubled hstopped.not_untroubled
  · obtain ⟨cause, rfl, hstopped⟩ := herror err herr
    exact ⟨cause, rfl, hstopped.ne_apply, hstopped⟩

/-- The directory of the document is said not to be found, and then the staged rules cannot be removed. -/
def secondDirectoryMissing : List Faults.Fault :=
  [⟨.createDirAll, none, 1, 1, ⟨.notFound, "gone"⟩⟩, ⟨.removeFile, none, 0, 1, ⟨.permissionDenied, "denied"⟩⟩]

/-- The missing directory is reported, and the last call was to remove the staged rules. -/
theorem apply_firstFailure_secondDirectoryMissing :
    let e := Enforcer.of ⟨"s"⟩ ⟨"p"⟩
    let p := (e.apply "HOST" true [⟨.clientAdmins, "bob", false⟩]).program
    let host := Faults.host Memory.host
    let missing : PolicyError := .io .createDirectory ⟨"p/localauthority.conf.d"⟩ ⟨.notFound, "gone"⟩
    (p.run host (secondDirectoryMissing, [])).result = .error (.apply "HOST" missing) ∧
      e.StoppedBy missing (p.exchanges host (secondDirectoryMissing, [])) ∧
      (p.exchanges host (secondDirectoryMissing, [])).map (fun x => (x.call.operation.name, x.call.path.text)) =
        [("list", "p/localauthority.conf.d"), ("create directory", "s"),
          ("write", "s/99-privguard-privilege-enforcement.new"), ("create directory", "p/localauthority.conf.d"),
          ("remove", "s/99-privguard-privilege-enforcement.new")] := by
  intro e p host missing
  have hresult : (p.run host (secondDirectoryMissing, [])).result = .error (.apply "HOST" missing) := by
    decide +kernel
  obtain ⟨-, -, herror⟩ := e.apply_firstFailure host (secondDirectoryMissing, []) "HOST" [⟨.clientAdmins, "bob", false⟩]
  obtain ⟨cause, hcause, -, hstopped⟩ := herror _ hresult
  cases hcause
  exact ⟨hresult, hstopped, by decide +kernel⟩

end Enforcer

end AdminPolicy
