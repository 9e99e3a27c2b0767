import AdminPolicy.Proofs.Posix.Changes
import AdminPolicy.Proofs.Run
import AdminPolicy.Proofs.Targets

/-!
# Installing on a POSIX file system

What a successful installation and a successful removal come to, read off the paths of the targets
(`achieves_commit`, `achieves_removeAll`). A removal comes to it whatever there is. An installation does if it does not
get into its own way (`State.Untangled`): what it stages goes to two files, and what it moves away or replaces is not on
the way to the targets. The directories may be links otherwise, the targets too, and files may have further names.
-/

namespace AdminPolicy

namespace Posix

open Installation State Enforcer

variable {s : State} {dir : HostPath} {d : Place} {met : List Place} {n : String} {c : ByteArray} {m : Mode}
  {p : HostPath}

/-! ## Answers -/

/-- Calls that only look change nothing. -/
theorem host_of_not_isMutation {call : HostCall} (h : call.isMutation = false) (s : State) : (host call s).2 = s := by
  unfold host
  split
  · rfl
  · cases call <;> first | rfl | cases h

/-- A call that succeeds was not refused for its paths. -/
theorem host_eq_answer {call : HostCall} {r : call.Reply} (h : (host call s).1 = .ok r) :
    host call s = answer call s := by
  unfold host at h ⊢
  split at h
  · cases h
  · rename_i hpaths
    rw [if_neg hpaths]

theorem eq_of_changing_ok {x : Except Fault State} {r : Unit} (h : (changing s x).1 = .ok r) :
    x = .ok (changing s x).2 := by
  cases x with
  | ok s' => rfl
  | error f => cases h

theorem grows_host_createDirAll (p : HostPath) (m : Mode) (s : State) : s.Grows (host (.createDirAll p m) s).2 [] := by
  unfold host
  split
  · exact .refl s
  · exact grows_makeDirectories m p.ancestors s

theorem writeFile_of_host {r : Unit} (h : (host (.writeFile p c m) s).1 = .ok r) :
    writeFile p c m s = .ok (host (.writeFile p c m) s).2 := by
  have hanswer := host_eq_answer h
  rw [hanswer] at h ⊢
  exact eq_of_changing_ok h

theorem rename_of_host {q : HostPath} {r : Unit} (h : (host (.rename p q) s).1 = .ok r) :
    rename p q s = .ok (host (.rename p q) s).2 := by
  have hanswer := host_eq_answer h
  rw [hanswer] at h ⊢
  exact eq_of_changing_ok h

theorem removeFile_of_host {r : Unit} (h : (host (.removeFile p) s).1 = .ok r) :
    removeFile p s = .ok (host (.removeFile p) s).2 := by
  have hanswer := host_eq_answer h
  rw [hanswer] at h ⊢
  exact eq_of_changing_ok h

/-- A removal that finds nothing changes nothing. -/
theorem removeFile_of_notFound {e : IoError} (h : (host (.removeFile p) s).1 = .error e) (hk : e.kind = .notFound) :
    removeFile p s = .error .notFound ∧ (host (.removeFile p) s).2 = s := by
  unfold host at h ⊢
  split at h
  · cases h
    cases hk
  · rename_i hpaths
    rw [if_neg hpaths]
    simp only [answer] at h ⊢
    cases hr : removeFile p s with
    | ok s' => rw [hr] at h; cases h
    | error f =>
      rw [hr] at h
      cases h
      cases f <;> first | exact ⟨rfl, rfl⟩ | cases hk

/-! ## Steps of an installation -/

variable {Q : Unit → State → Prop}

theorem achieves_ensureParent (h : ∀ s', s.Grows s' [] → Q () s') : (ensureParent p).Achieves host Q s := by
  unfold ensureParent
  split
  · refine Action.ensures_ite (fun _ => Action.ensures_pure (h s (.refl s))) fun _ => ?_
    exact Action.ensures_attempt (fun _ _ => ⟨trivial, h _ (grows_host_createDirAll _ _ s)⟩)
      fun _ _ => ⟨trivial, trivial⟩
  · exact Action.ensures_pure (h s (.refl s))

/-- Staging a file stores it under its temporary name, if no link bears that name there. -/
theorem achieves_stage (hn : IsFileName n) (hp : temporary p = dir.join n)
    (hlink : ∀ d met, s.route dir = some (d, met) → s.link? (d ++ [n]) = none) {contents : String}
    (h : ∀ s' d met, s.Grows s' [d ++ [n]] → s'.Stored dir d met n contents.toUTF8 → Q () s') :
    (stage p contents m).Achieves host Q s := by
  unfold stage
  refine Action.ensures_bind (R := fun _ s₁ => s.Grows s₁ []) (achieves_ensureParent fun _ hg => hg) fun _ s₁ hg => ?_
  rw [hp]
  refine Action.ensures_attempt (fun r hr => ⟨trivial, ?_⟩) fun _ _ => ⟨trivial, trivial⟩
  have hlink₁ : ∀ d met, s₁.route dir = some (d, met) → s₁.link? (d ++ [n]) = none := by
    rw [hg.route_eq, hg.link?]
    exact hlink
  obtain ⟨d, met, ho, hgrows, hfile⟩ := grows_writeFile hn hlink₁ (writeFile_of_host hr)
  exact h _ d met (hg.trans hgrows) ⟨hgrows.opens ho, _, hfile⟩

theorem achieves_stageAuthorization {ts : Targets} (hn : IsFileName n) (hp : temporary ts.authorization = dir.join n)
    (hlink : ∀ d met, s.route dir = some (d, met) → s.link? (d ++ [n]) = none) {document : String}
    (h : ∀ s' d met, s.Grows s' [d ++ [n]] → s'.Stored dir d met n document.toUTF8 → Q () s') :
    (stageAuthorization ts document).Achieves host Q s := by
  unfold stageAuthorization Action.Achieves Action.Ensures
  rw [Action.program_of]
  refine Program.ensures_bind (achieves_stage (m := authorizationMode) hn hp hlink h) fun r s' hr => ?_
  cases r with
  | ok _ => exact Program.ensures_done hr
  | error e =>
    exact Program.ensures_bind (R := fun _ _ => True) ⟨fun _ _ => trivial, trivial⟩ fun _ _ _ =>
      Program.ensures_done trivial

/-- Installing a staged file moves it to its name. -/
theorem achieves_install {a b : String} (hwd : s.Reached s.workingDirectory) (ha : IsFileName a) (hb : IsFileName b)
    (hab : a ≠ b) (ht : temporary p = dir.join a) (hp : p = dir.join b)
    (hc : ∀ d met, s.Opens dir d met → s.Stored dir d met a c)
    (h : ∀ s' d met, s.Renames s' dir d met a b c → pathFault? (dir.join b) = none → Q () s') :
    (install p).Achieves host Q s := by
  refine Action.ensures_attempt (fun r hr => ⟨trivial, ?_⟩) fun _ _ => ⟨trivial, trivial⟩
  have hrename := rename_of_host hr
  rw [ht, hp] at hrename
  obtain ⟨hf, d, met, hrenames⟩ := renames_rename hwd ha hb hab hc hrename
  rw [ht, hp]
  exact h _ d met hrenames hf

/-- Removing a file that may be missing leaves none. -/
theorem achieves_removeIfExists (hwd : s.Reached s.workingDirectory) (hn : IsFileName n) (hp : p = dir.join n)
    (h : ∀ s', s.Removes s' dir n → Q () s') : (removeIfExists p).Achieves host Q s := by
  subst hp
  unfold removeIfExists Action.Achieves Action.Ensures
  rw [Action.program_of]
  refine Program.ensures_request trivial ?_
  cases hr : (host (.removeFile (dir.join n)) s).1 with
  | ok r =>
    have hremoves := removes_removeFile hwd hn (removeFile_of_host hr)
    exact Program.ensures_report (Program.ensures_done (h _ hremoves))
  | error e =>
    by_cases hk : e.kind = .notFound
    · -- nothing was there, so nothing had to change
      obtain ⟨hnone, hsame⟩ := removeFile_of_notFound hr hk
      simp only [hk, ↓reduceIte]
      rw [hsame]
      exact Program.ensures_done (h s (removes_of_notFound hwd hn hnone))
    · simp only [hk, ↓reduceIte]
      exact Program.ensures_done trivial

/-! ## Reading the targets -/

/-- The contents of the file that a path leads to, if it leads to one. -/
def fileAt? (p : HostPath) (s : State) : Option ByteArray := (readBytes p s).toOption

theorem fileAt?_eq_some : fileAt? p s = some c ↔ readBytes p s = .ok c := by
  unfold fileAt?
  cases readBytes p s <;> simp [Except.toOption]

theorem fileAt?_eq_none (h : ∀ c, readBytes p s ≠ .ok c) : fileAt? p s = none := by
  rw [Option.eq_none_iff_forall_ne_some]
  exact fun c hc => h c (fileAt?_eq_some.mp hc)

theorem State.Stored.fileAt? (h : s.Stored dir d met n c) (hn : IsFileName n) (hf : pathFault? (dir.join n) = none) :
    fileAt? (dir.join n) s = some c := fileAt?_eq_some.mpr (h.readBytes hn hf)

/-! ## Installing and removing -/

/-- The name that the rules are staged under. -/
abbrev rulesTemporaryName : String := baseFileName ++ temporarySuffix

/-- The name that the document is staged under. -/
abbrev documentTemporaryName : String := ownFragmentName ++ temporarySuffix

theorem isFileName_baseFileName : IsFileName baseFileName := ⟨isName_baseFileName, by decide⟩

theorem isFileName_ownFragmentName : IsFileName ownFragmentName := ⟨isName_ownFragmentName, by decide⟩

theorem isFileName_rulesTemporaryName : IsFileName rulesTemporaryName := ⟨isName_temporary_baseFileName, by decide⟩

theorem isFileName_documentTemporaryName : IsFileName documentTemporaryName :=
  ⟨isName_temporary_ownFragmentName, by decide⟩

/-- An installation does not get into its own way: what is staged for the targets goes to two files, and no way to a
target leads over a link that a target takes the place of. -/
structure State.Untangled (s : State) (e : Enforcer) : Prop where
  workingDirectory : s.Reached s.workingDirectory
  /-- Where the rules are staged is no link, and their place is no link on the way there. -/
  rules : ∀ r ∈ s.route e.sudoersDirectory,
    s.link? (r.1 ++ [rulesTemporaryName]) = none ∧ r.1 ++ [baseFileName] ∉ r.2
  /-- The same holds of the document. -/
  document : ∀ r ∈ s.route e.fragmentDirectory,
    s.link? (r.1 ++ [documentTemporaryName]) = none ∧ r.1 ++ [ownFragmentName] ∉ r.2
  /-- Both are not staged in one inode, and the place of the document is no link on the way to the rules. -/
  apart : ∀ r ∈ s.route e.sudoersDirectory, ∀ r' ∈ s.route e.fragmentDirectory,
    ¬ s.SameFile (r.1 ++ [rulesTemporaryName]) (r'.1 ++ [documentTemporaryName]) ∧ r'.1 ++ [ownFragmentName] ∉ r.2

variable (e : Enforcer)

/-- The staged rules go to their place. -/
theorem achieves_install_rules (hwd : s.Reached s.workingDirectory)
    (hc : s.Stored e.sudoersDirectory d met rulesTemporaryName c) :
    (install e.targets.rules).Achieves host (fun _ s' =>
      s.Renames s' e.sudoersDirectory d met rulesTemporaryName baseFileName c ∧
      pathFault? e.targets.rules = none) s := by
  have hstaged : ∀ d' met', s.Opens e.sudoersDirectory d' met' →
      s.Stored e.sudoersDirectory d' met' rulesTemporaryName c := by
    intro d' met' ho
    obtain ⟨rfl, rfl⟩ := hc.opens.unique ho
    exact hc
  refine achieves_install hwd isFileName_rulesTemporaryName isFileName_baseFileName (by decide) e.temporary_rules rfl
    hstaged fun s' d' met' hr hf => ?_
  obtain ⟨rfl, rfl⟩ := hc.opens.unique hr.stored.opens
  exact ⟨hr, hf⟩

/-- Both staged files go to their places, if neither target is on the way to a file that is already in its place. -/
theorem achieves_install_both {d' : Place} {met' : List Place} {rules document : ByteArray}
    (hwd : s.Reached s.workingDirectory) (hr : s.Stored e.sudoersDirectory d met rulesTemporaryName rules)
    (hd : s.Stored e.fragmentDirectory d' met' documentTemporaryName document) (hbase : d ++ [baseFileName] ∉ met)
    (hown : d' ++ [ownFragmentName] ∉ met') (hover : d' ++ [ownFragmentName] ∉ met) :
    (do
      install e.targets.rules
      Action.emit (.installedRules e.targets.rules.text)
      install e.targets.authorization
      Action.emit (.installedAuthorization e.targets.authorization.text)
      pure Outcome.written).Achieves host
      (fun _ s' => e.targets.Hold fileAt? (some rules) (some document) s') s := by
  refine Action.ensures_bind (achieves_install_rules e hwd hr) fun _ s₁ h₁ => ?_
  obtain ⟨h₁, hfault⟩ := h₁
  have hwd₁ := h₁.frame.reached_workingDirectory hwd
  have hrules₁ := h₁.stored_target hwd hbase
  refine Action.ensures_bind (R := fun _ s₂ => s₂ = s₁) (Action.ensures_emit rfl) fun _ s₂ h₂ => ?_
  subst h₂
  have hstaged₁ : ∀ d₁ met₁, s₂.Opens e.fragmentDirectory d₁ met₁ →
      s₂.Stored e.fragmentDirectory d₁ met₁ documentTemporaryName document :=
    fun d₁ met₁ ho => h₁.stored_of_opens hwd hd (by decide) (by decide) ho
  refine Action.ensures_bind (R := fun _ s₃ => e.targets.Hold fileAt? (some rules) (some document) s₃)
    (achieves_install hwd₁ isFileName_documentTemporaryName isFileName_ownFragmentName (by decide)
      e.temporary_authorization rfl hstaged₁ fun s₃ d₁ met₁ h₃ hfault' => ?_)
    fun _ s₃ h₃ => Action.ensures_bind (Action.ensures_emit h₃) fun _ _ h => Action.ensures_pure h
  obtain ⟨rfl, rfl⟩ := hd.opens.unique (h₃.stored.opens.of_frame h₁.frame hwd h₁.link?)
  have hrules₃ := h₃.stored_other hwd₁ hrules₁ (by decide) (by decide) hover
  exact ⟨hrules₃.fileAt? isFileName_baseFileName hfault,
    (h₃.stored_target hwd₁ hown).fileAt? isFileName_ownFragmentName hfault'⟩

/-- The staged rules go to their place and an old document is removed, if it is not on the way to the rules. -/
theorem achieves_install_without {rules : ByteArray} (hwd : s.Reached s.workingDirectory)
    (hr : s.Stored e.sudoersDirectory d met rulesTemporaryName rules) (hbase : d ++ [baseFileName] ∉ met)
    (hover : ∀ r ∈ s.route e.fragmentDirectory, r.1 ++ [ownFragmentName] ∉ met) :
    (do
      install e.targets.rules
      Action.emit (.installedRules e.targets.rules.text)
      removeIfExists e.targets.authorization
      pure Outcome.removed).Achieves host (fun _ s' => e.targets.Hold fileAt? (some rules) none s') s := by
  refine Action.ensures_bind (achieves_install_rules e hwd hr) fun _ s₁ h₁ => ?_
  obtain ⟨h₁, hfault⟩ := h₁
  have hwd₁ := h₁.frame.reached_workingDirectory hwd
  have hrules₁ := h₁.stored_target hwd hbase
  refine Action.ensures_bind (R := fun _ s₂ => s₂ = s₁) (Action.ensures_emit rfl) fun _ s₂ h₂ => ?_
  subst h₂
  refine Action.ensures_bind (R := fun _ s₃ => e.targets.Hold fileAt? (some rules) none s₃)
    (achieves_removeIfExists hwd₁ isFileName_ownFragmentName rfl fun s₃ h₃ => ?_)
    fun _ _ h => Action.ensures_pure h
  obtain ⟨changed, hframe, hplaces⟩ := h₃.frame
  have hrules₃ := hrules₁.frame hwd₁ hframe (fun q hq => ?_) fun hmem => ?_
  · exact ⟨hrules₃.fileAt? isFileName_baseFileName hfault, fileAt?_eq_none h₃.gone⟩
  · -- where the document is removed, its path led before the rules were installed
    obtain ⟨d₁, met₁, ho, rfl⟩ := hplaces q hq
    exact hover _ (ho.of_frame h₁.frame hwd h₁.link?).route_eq
  · obtain ⟨d₁, met₁, -, heq⟩ := hplaces _ hmem
    exact concat_ne_of_ne (by decide) d d₁ heq

/-- **A successful installation** leaves the renderings of the policy. -/
theorem achieves_commit (policy : CompiledPolicy) (hu : s.Untangled e) :
    (commit e.targets policy).Achieves host (fun _ s' => e.targets.Hold fileAt? (some policy.renderRules.toUTF8)
      (policy.authorization.render?.map String.toUTF8) s') s := by
  unfold commit
  refine Action.ensures_bind (R := fun _ s₁ => ∃ d met, s.Grows s₁ [d ++ [rulesTemporaryName]] ∧
      s₁.Stored e.sudoersDirectory d met rulesTemporaryName policy.renderRules.toUTF8)
    (achieves_stage isFileName_rulesTemporaryName e.temporary_rules (fun d met hr => (hu.rules _ hr).1)
      fun s₁ d met hg hstored => ⟨d, met, hg, hstored⟩) fun _ s₁ h₁ => ?_
  obtain ⟨d, met, hg₁, hstaged₁⟩ := h₁
  have hwd₁ := hg₁.reached_workingDirectory hu.workingDirectory
  have hroute : s.route e.sudoersDirectory = some (d, met) := by
    rw [← hg₁.route_eq, hstaged₁.opens.route_eq]
  have hbase := (hu.rules _ hroute).2
  cases hd : policy.authorization.render? with
  | some document =>
    -- the document is staged, then both files are installed, the rules first
    refine Action.ensures_bind (R := fun _ s₂ => ∃ d' met', s₁.Grows s₂ [d' ++ [documentTemporaryName]] ∧
        s₂.Stored e.fragmentDirectory d' met' documentTemporaryName document.toUTF8)
      (achieves_stageAuthorization isFileName_documentTemporaryName e.temporary_authorization ?_
        fun s₂ d' met' hg hstored => ⟨d', met', hg, hstored⟩) fun _ s₂ h₂ => ?_
    · intro d' met' hr
      rw [hg₁.route_eq] at hr
      rw [hg₁.link?]
      exact (hu.document _ hr).1
    obtain ⟨d', met', hg₂, hdocument₂⟩ := h₂
    have hwd₂ := hg₂.reached_workingDirectory hwd₁
    have hroute' : s.route e.fragmentDirectory = some (d', met') := by
      rw [← hg₁.route_eq, ← hg₂.route_eq, hdocument₂.opens.route_eq]
    obtain ⟨happart, hover⟩ := hu.apart _ hroute _ hroute'
    have hne := concat_ne_of_ne (a := rulesTemporaryName) (b := documentTemporaryName) (by decide) d d'
    have hstaged₂ := hstaged₁.grows hg₂ fun w hw => by
      rw [List.mem_singleton.mp hw]
      exact ⟨hne, fun hs => happart (hg₁.sameFile hne hs)⟩
    exact achieves_install_both e hwd₂ hstaged₂ hdocument₂ hbase (hu.document _ hroute').2 hover
  | none =>
    refine achieves_install_without e hwd₁ hstaged₁ hbase fun r hr => ?_
    rw [hg₁.route_eq] at hr
    exact (hu.apart _ hroute r hr).2

/-- **A successful removal** leaves neither file, whatever there is. -/
theorem achieves_removeAll (hwd : s.Reached s.workingDirectory) :
    (removeAll e.targets).Achieves host (fun _ s' => e.targets.Hold fileAt? none none s') s := by
  unfold removeAll
  refine Action.ensures_bind (R := fun _ s₁ => s.Removes s₁ e.sudoersDirectory baseFileName)
    (achieves_removeIfExists hwd isFileName_baseFileName rfl fun _ h => h) fun _ s₁ h₁ => ?_
  obtain ⟨changed₁, hframe₁, -⟩ := h₁.frame
  refine achieves_removeIfExists (hframe₁.reached_workingDirectory hwd) isFileName_ownFragmentName rfl
    fun s₂ h₂ => ?_
  obtain ⟨changed₂, hframe₂, -⟩ := h₂.frame
  refine ⟨fileAt?_eq_none fun c hc => ?_, fileAt?_eq_none h₂.gone⟩
  exact h₁.gone c (readBytes_mono hframe₂.workingDirectory.symm h₂.left hc)

end Posix

end AdminPolicy
