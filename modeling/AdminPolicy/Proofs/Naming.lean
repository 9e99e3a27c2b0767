import AdminPolicy.Enforcement
import AdminPolicy.Host.Memory
import AdminPolicy.Proofs.Document
import AdminPolicy.Proofs.Path
import AdminPolicy.Proofs.Run

/-!
# Whom a document names

What the value of a document says, once it is cut at every `;` again. On whatever host a policy is compiled, what was
read of others is a value of a key file (`Fragments.ends_layeredAdmins`), so the document is read back as it was
meant. The pieces of its value are those of what others have set and, behind them, the granted names one by one: no
name can add a piece, take one away or run into its neighbour (`Enforcer.compile_names`).
-/

namespace AdminPolicy

open Text KeyFile

/-! ## Cutting a value -/

/-- The names that a value lists, between its semicolons. The empty value lists nobody. -/
def listed (value : String) : List String :=
  if value = "" then [] else (splitOn ';' value.toList).map String.ofList

theorem toList_joinStrings (names : List String) :
    (joinStrings ";" names).toList = joinWith [';'] (names.map String.toList) := by
  simp [joinStrings]

/-- A cut gives joined names back, one piece for each. -/
theorem splitOn_joinStrings {names : List String} (hne : names ≠ []) (h : ∀ n ∈ names, ';' ∉ n.toList) :
    (splitOn ';' (joinStrings ";" names).toList).map String.ofList = names := by
  have hpieces : ∀ p ∈ names.map String.toList, ';' ∉ p := by
    intro p hp
    obtain ⟨n, hn, rfl⟩ := List.mem_map.mp hp
    exact h n hn
  rw [toList_joinStrings, splitOn_joinWith (by simpa using hne) hpieces, List.map_map]
  simp [Function.comp_def]

theorem joinStrings_ne_empty {names : List String} (hne : names ≠ []) (h : ∀ n ∈ names, n ≠ "" ∧ ';' ∉ n.toList) :
    joinStrings ";" names ≠ "" := by
  intro hempty
  have hsplit := splitOn_joinStrings hne fun n hn => (h n hn).2
  rw [hempty] at hsplit
  have hsingle : names = [""] := hsplit.symm
  exact (h "" (by simp [hsingle])).1 rfl

/-- Joined names are listed as they are. -/
theorem listed_joinStrings {names : List String} (h : ∀ n ∈ names, n ≠ "" ∧ ';' ∉ n.toList) :
    listed (joinStrings ";" names) = names := by
  by_cases hne : names = []
  · subst hne
    rfl
  · unfold listed
    rw [if_neg (joinStrings_ne_empty hne h), splitOn_joinStrings hne fun n hn => (h n hn).2]

/-- A value in front of joined names keeps its own pieces, whatever they are. -/
theorem listed_append {value : String} {names : List String} (hv : value ≠ "") (hne : names ≠ [])
    (h : ∀ n ∈ names, ';' ∉ n.toList) :
    listed (value ++ ";" ++ joinStrings ";" names) = listed value ++ names := by
  have hempty : value ++ ";" ++ joinStrings ";" names ≠ "" := by
    intro he
    have hlist := congrArg String.toList he
    simp [String.toList_append] at hlist
  have hcut : (value ++ ";" ++ joinStrings ";" names).toList =
      value.toList ++ ';' :: (joinStrings ";" names).toList := by
    simp [String.toList_append]
  unfold listed
  rw [if_neg hempty, if_neg hv, hcut, HostPath.splitOn_append, List.map_append, splitOn_joinStrings hne h]

/-! ## Granted names -/

/-- A granted name says whether it is that of a user or of a group, and gives the name of the account. -/
def IsGrantedName (n : String) : Prop :=
  ∃ name, IdentityList.IsAccountName name ∧ (n = "unix-user:" ++ name ∨ n = "unix-group:" ++ name)

theorem isGrantedName_authorizationName {i : Identity} (h : IdentityList.IsAccountName i.name) :
    IsGrantedName i.authorizationName := by
  refine ⟨i.name, h, ?_⟩
  unfold Identity.authorizationName
  split
  · exact Or.inr rfl
  · exact Or.inl rfl

theorem IsGrantedName.ne_empty {n : String} (h : IsGrantedName n) : n ≠ "" := by
  obtain ⟨name, -, rfl | rfl⟩ := h
  · intro he
    simpa [String.toList_append] using congrArg String.toList he
  · intro he
    simpa [String.toList_append] using congrArg String.toList he

/-- No granted name holds what separates the names of a value. -/
theorem IsGrantedName.semicolon {n : String} (h : IsGrantedName n) : ';' ∉ n.toList := by
  obtain ⟨name, hname, hn⟩ := h
  have hrest : ';' ∉ name.toList := fun hc => hname.not_mem_forbidden _ hc (by decide)
  intro hc
  rcases hn with rfl | rfl
  · exact (List.mem_append.mp (String.toList_append ▸ hc)).elim (by decide) hrest
  · exact (List.mem_append.mp (String.toList_append ▸ hc)).elim (by decide) hrest

/-- The names that a policy of entries grants. -/
def grantedNames (entries : List Entry) : List String := (lastGrants entries).map Identity.authorizationName

theorem isGrantedName_of_mem {entries : List Entry} {n : String} (h : n ∈ grantedNames entries) : IsGrantedName n := by
  obtain ⟨i, hi, rfl⟩ := List.mem_map.mp h
  exact isGrantedName_authorizationName (isAccountName_of_mem_lastGrants hi)

/-- The names that the authorization of a policy lists: those of others, if they stay, and the granted ones. -/
theorem listed_adminIdentities {entries : List Entry} {system ids : String}
    (h : (compile entries system).authorization.adminIdentities? = some ids) :
    (compile entries system).authorization = .merged system (grantedNames entries) ∧
        listed ids = listed system ++ grantedNames entries ∨
      (compile entries system).authorization = .explicitOnly (grantedNames entries) ∧
        listed ids = grantedNames entries := by
  have hnames : ∀ n ∈ grantedNames entries, n ≠ "" ∧ ';' ∉ n.toList := fun n hn =>
    ⟨(isGrantedName_of_mem hn).ne_empty, (isGrantedName_of_mem hn).semicolon⟩
  rcases authorization_compile entries system with ⟨ha, _⟩ | ⟨ha, hne⟩ | ha
  · rw [ha] at h
    cases h
  · refine Or.inl ⟨ha, ?_⟩
    rw [ha] at h
    simp only [Authorization.adminIdentities?] at h
    split at h
    · rename_i hsystem
      cases Option.some.inj h
      rw [hsystem]
      exact listed_joinStrings hnames
    · rename_i hsystem
      cases Option.some.inj h
      exact listed_append hsystem hne fun n hn => (hnames n hn).2
  · refine Or.inr ⟨ha, ?_⟩
    rw [ha] at h
    cases Option.some.inj h
    exact listed_joinStrings hnames

/-! ## What is read of others -/

/-- The errors that reading fragments comes to: a call that looks failed, or a fragment is no key file. -/
inductive PolicyError.IsOfReading : PolicyError → Prop where
  | list (path : HostPath) (cause : IoError) : IsOfReading (.io .list path cause)
  | stat (path : HostPath) (cause : IoError) : IsOfReading (.io .stat path cause)
  | read (path : HostPath) (cause : IoError) : IsOfReading (.io .read path cause)
  | fragmentParse (path : HostPath) (line : Nat) (detail : String) : IsOfReading (.fragmentParse path line detail)

namespace Fragments

open PolicyError

theorem ends_parse (path : HostPath) (source : String) :
    (parse path source).Ends (fun file => KeyFile.parse source = .ok file) IsOfReading := by
  unfold parse
  split
  · rename_i file hf
    exact Action.ends_pure hf
  · exact Action.ends_fail (.fragmentParse _ _ _)

/-- Layering ends with a value if it begins with one, whatever the host answers. -/
theorem ends_layerAll (directory : HostPath) (names : List String) (value : String) (hv : IsValue value.toList) :
    (layerAll directory value names).Ends (fun v => IsValue v.toList) IsOfReading := by
  induction names generalizing value with
  | nil => exact Action.ends_pure hv
  | cons name names ih =>
    unfold layerAll
    refine Action.ends_bind (R := fun _ => True) (Action.ends_attempt (fun _ => trivial) fun _ => .stat _ _)
      fun isDir _ => Action.ends_ite (fun _ => ?_) fun _ => ?_
    · exact Action.ends_bind (R := fun _ => True) (Action.ends_emit trivial) fun _ _ => ih value hv
    · refine Action.ends_bind (R := fun _ => True) (Action.ends_attempt (fun _ => trivial) fun _ => .read _ _)
        fun source _ => Action.ends_bind (ends_parse _ source) fun file hfile => ih _ ?_
      -- a fragment that sets nothing leaves the value, and what it sets was read
      cases hget : file.get? Authorization.sectionName Authorization.keyName with
      | none => exact hv
      | some w => exact isValue_of_get? hfile hget

/-- **Reading fragments comes to a value** or to an error of reading, on any host. -/
theorem ends_layeredAdmins (keep : String → Bool) (directory : HostPath) :
    (layeredAdmins keep directory).Ends (fun v => IsValue v.toList) IsOfReading := by
  have hempty : IsValue "".toList := isValue_of_forall (show Blankless "" by decide)
  refine Program.ends_request fun a => ?_
  cases a with
  | ok names => exact ends_layerAll directory _ "" hempty
  | error e =>
    simp only
    split
    · exact Program.ends_report (Program.ends_done hempty)
    · exact Program.ends_done (.list _ _)

end Fragments

namespace Enforcer

variable {σ : Type} {host : Host σ} (e : Enforcer)

/-- Compiling on a host is compiling with what is read of others there. -/
theorem result_compile (entries : List Entry) (s : σ) : ((e.compile entries).program.run host s).result =
    ((systemAdmins e.fragmentDirectory).program.run host s).result.map (AdminPolicy.compile entries) := by
  unfold compile
  cases h : ((systemAdmins e.fragmentDirectory).program.run host s).result with
  | error err => exact Action.result_bind_of_error h _
  | ok system =>
    rw [Action.result_bind_of_ok h, Action.program_of, Program.run_bind]
    rfl

/-- **Whom a document names.** On any host, let entries be compiled to a policy with an authorization document. The
document is a key file, and what it assigns to the administrators is the value that the policy names. The pieces of
that value are those of what others have set, if these stay and set anything, and behind them the granted names, each
a user's or a group's. -/
theorem compile_names (entries : List Entry) (s : σ) {p : CompiledPolicy}
    (hp : ((e.compile entries).program.run host s).result = .ok p) (ha : p.authorization ≠ .absent) :
    ∃ system ids document, ((systemAdmins e.fragmentDirectory).program.run host s).result = .ok system ∧
      p.authorization.adminIdentities? = some ids ∧ p.authorization.render? = some document ∧
      (∃ file, KeyFile.parse document = .ok file ∧ file.get? "Configuration" "AdminIdentities" = some ids) ∧
      (p.authorization = .merged system (grantedNames entries) ∧ listed ids = listed system ++ grantedNames entries ∨
        p.authorization = .explicitOnly (grantedNames entries) ∧ listed ids = grantedNames entries) ∧
      ∀ n ∈ grantedNames entries, IsGrantedName n := by
  rw [result_compile] at hp
  cases hsystem : ((systemAdmins e.fragmentDirectory).program.run host s).result with
  | error err => rw [hsystem] at hp; cases hp
  | ok system =>
    rw [hsystem] at hp
    obtain rfl : AdminPolicy.compile entries system = p := Except.ok.inj hp
    obtain ⟨ids, hids⟩ := Authorization.exists_adminIdentities?_of_ne_absent ha
    obtain ⟨document, hdocument⟩ := Authorization.exists_render?_of_adminIdentities? hids
    have hvalue := isValue_adminIdentities ((Fragments.ends_layeredAdmins _ _).of_ok hsystem) hids
    exact ⟨system, ids, document, rfl, hids, hdocument, get?_of_render? hdocument hids hvalue,
      listed_adminIdentities hids, fun _ => isGrantedName_of_mem⟩

/-- A host on which others have set a value with an empty piece in it. -/
def gappedTree : Memory.Tree :=
  [(⟨"p"⟩, .directory 0o755), (⟨"p/localauthority.conf.d"⟩, .directory 0o755),
    (⟨"p/localauthority.conf.d/50-site.conf"⟩, .file "[Configuration]\nAdminIdentities=a;;b\n".toUTF8 0o644)]

/-- Names that try to be more than one name are one name each, behind the pieces of what others have set. -/
theorem compile_names_gappedTree :
    let e := Enforcer.of ⟨"s"⟩ ⟨"p"⟩
    let entries := [⟨.clientAdmins, "bob;\nunix-user:root,%AD\\eve]\r\n", false⟩]
    ∃ p, ((e.compile entries).program.run Memory.host gappedTree).result = .ok p ∧ p.authorization ≠ .absent ∧
      ∃ ids, p.authorization.adminIdentities? = some ids ∧ listed ids =
        ["a", "", "b", "unix-user:bob", "unix-user:unix-userroot", "unix-group:eve@AD"] := by
  intro e entries
  have hread : ((systemAdmins e.fragmentDirectory).program.run Memory.host gappedTree).result = .ok "a;;b" := by
    decide +kernel
  have hp : ((e.compile entries).program.run Memory.host gappedTree).result =
      .ok (AdminPolicy.compile entries "a;;b") := by
    rw [result_compile, hread]
    rfl
  have ha : (AdminPolicy.compile entries "a;;b").authorization ≠ .absent := by decide +kernel
  obtain ⟨system, ids, document, hsystem, hids, -, -, hlisted, -⟩ := compile_names e entries gappedTree hp ha
  obtain rfl : "a;;b" = system := Except.ok.inj (hread.symm.trans hsystem)
  refine ⟨_, hp, ha, ids, hids, ?_⟩
  rcases hlisted with ⟨-, hl⟩ | ⟨he, -⟩
  · rw [hl]
    decide +kernel
  · exact absurd he (by decide +kernel)

end Enforcer

end AdminPolicy
