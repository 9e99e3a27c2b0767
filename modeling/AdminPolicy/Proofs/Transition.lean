import AdminPolicy.Proofs.Faults
import AdminPolicy.Proofs.Footprint

/-!
# From the old files to the new

One application to a computer, seen from outside. Whatever calls fail on the way, the targets hold at every point the
old pair of files, the new rules with the old authorization document, or the new pair (`apply_transition`). Without
faults a success leaves exactly the compiled policy, whatever the tree held before (`apply_installs`).
-/

namespace AdminPolicy.Enforcer

open Memory Installation Faults

/-! ## Under faults -/

theorem aim_injecting {ι : Type} (e : Enforcer) (inject : Injector ι) (i : ι) (t : Tree) (entries : List Entry) :
    e.aim (injecting inject host) (i, t) entries =
      e.aim (injecting (inject.reached i) host) (⟨i, [], rfl⟩, t) entries := by
  unfold aim
  rw [run_injecting]
  rfl

/-- **The transition of the targets.** Let any calls of an application fail, as long as no file that is to be removed
is pretended to be missing. Before it, between any two of its calls and after it, the targets hold the old pair of
files, the new rules with the old authorization document, or the new pair, where the new pair is what the entries come
to with the value that the reading of this call returned (none if it failed). A failure leaves the old authorization
document, and a success the new pair. -/
theorem apply_transition {ι : Type} (inject : Injector ι) (i : ι) (hi : inject.PretendsNoAbsence i) (e : Enforcer)
    (object : String) (entries : List Entry) (t : Tree) :
    let host := injecting inject Memory.host
    let r := (e.apply object true entries).program.run host (i, t)
    let old := e.targets.files t
    let aim := e.aim host (i, t) entries
    (∀ s ∈ r.states (i, t), old.Toward aim (e.targets.files s.2)) ∧
      (∀ err, r.result = .error err → (e.targets.files r.final.2).authorization = old.authorization) ∧
      (r.result = .ok () → aim = .ok (e.targets.files r.final.2)) := by
  intro host r old aim
  have h := e.ensures_apply (backed_injecting (inject.reached i)) (reportsAbsence_reached hi) object entries
    (⟨i, [], rfl⟩, t)
  have hr : r = ((e.apply object true entries).program.run (injecting (inject.reached i) Memory.host)
      (⟨i, [], rfl⟩, t)).map Injector.forget := run_injecting inject Memory.host _ i t
  have ha : aim = e.aim (injecting (inject.reached i) Memory.host) (⟨i, [], rfl⟩, t) entries :=
    aim_injecting e inject i t entries
  rw [hr, ha]
  refine ⟨fun s hs => ?_, fun err herr => (h.of_error herr).2, fun hok => Enforced.files_eq e (h.of_ok hok)⟩
  obtain ⟨s', hs', rfl⟩ := List.mem_map.mp ((Run.states_map Injector.forget _ (⟨i, [], rfl⟩, t)) ▸ hs)
  refine h.mem_states (Or.inl rfl) (fun _ s₁ h₁ => ?_) (fun _ _ h₁ => h₁.1) s' hs'
  exact Or.inr ⟨_, Enforced.files_eq e h₁, Or.inr rfl⟩

/-- The second renaming of an application is denied. -/
def secondRenameDenied : List Fault := [⟨.rename, none, 1, 1, ⟨.permissionDenied, "denied"⟩⟩]

/-- With the renaming of the document denied, the rules are new and the document is the old one. -/
theorem apply_transition_secondRenameDenied :
    let e := Enforcer.of ⟨""⟩ ⟨""⟩
    let entries := [⟨.clientAdmins, "bob", false⟩]
    let r := (e.apply "HOST" true entries).program.run (Faults.host Memory.host) (secondRenameDenied, [])
    Injector.PretendsNoAbsence consult secondRenameDenied ∧
      (∀ s ∈ r.states (secondRenameDenied, []), TargetFiles.Toward ⟨none, none⟩
        (e.aim (Faults.host Memory.host) (secondRenameDenied, []) entries) (e.targets.files s.2)) ∧
      r.result.toOption = none ∧ (e.targets.files r.final.2).authorization = none ∧
      (e.targets.files r.final.2).rules.isSome = true := by
  have hf : Injector.PretendsNoAbsence consult secondRenameDenied := pretendsNoAbsence_consult (by decide)
  have h := apply_transition consult secondRenameDenied hf (Enforcer.of ⟨""⟩ ⟨""⟩) "HOST"
    [⟨.clientAdmins, "bob", false⟩] []
  exact ⟨hf, h.1, by decide +kernel⟩

/-! ## Without faults -/

/-- The run of an application to a computer on a tree, without faults. -/
def applied (e : Enforcer) (object : String) (entries : List Entry) (t : Tree) : Run Tree (Except PolicyError Unit) :=
  (e.apply object true entries).program.run Memory.host t

/-- What others have set, as the fragments of a tree say. -/
def foreign (e : Enforcer) (t : Tree) : Except PolicyError String :=
  ((systemAdmins e.fragmentDirectory).program.run Memory.host t).result

variable (e : Enforcer)

theorem ensures_applied (object : String) (entries : List Entry) (t : Tree) :
    (e.apply object true entries).Ensures Memory.host
      (fun t' => TargetFiles.Toward (e.targets.files t) (e.aim Memory.host t entries) (e.targets.files t'))
      (fun _ t' => e.Enforced (e.foreign t) entries t')
      (fun _ t' => TargetFiles.Toward (e.targets.files t) (e.aim Memory.host t entries) (e.targets.files t') ∧
        (e.targets.files t').authorization = (e.targets.files t).authorization) t :=
  e.ensures_apply backed_host reportsAbsence_host object entries t

/-- A success with entries installs what they come to with the value that others have set. -/
theorem installed_of_applied (object : String) {entries : List Entry} (t : Tree)
    (hok : (e.applied object entries t).result = .ok ()) (hne : entries ≠ []) :
    ∃ v, e.foreign t = .ok v ∧
      Installed e.targets (AdminPolicy.compile entries v) (e.applied object entries t).final := by
  have h : e.Enforced (e.foreign t) entries (e.applied object entries t).final :=
    (e.ensures_applied object entries t).of_ok hok
  unfold Enforced at h
  rwa [if_neg (by simpa using hne)] at h

/-- **What a success installs.** Whatever the tree held before: with entries, both files are the renderings of the
policy that the entries come to with the value that the fragments of others have, each with the mode of its kind, the
document being gone if the policy has none, and nothing staged is left; without entries both files are gone, and
nothing but the two removals was asked of the host, so no fragment can stand in the way. -/
theorem apply_installs (object : String) (entries : List Entry) (t : Tree)
    (hok : (e.applied object entries t).result = .ok ()) :
    let t' := (e.applied object entries t).final
    (entries ≠ [] → ∃ v, e.foreign t = .ok v ∧
      let p := AdminPolicy.compile entries v
      t'.lookup e.targets.rules = some (.file p.renderRules.toUTF8 0o600) ∧
        t'.lookup e.targets.authorization =
          p.authorization.render?.map (fun document => .file document.toUTF8 0o644) ∧
        t'.lookup (temporary e.targets.rules) = none ∧
        (p.authorization.render? ≠ none → t'.lookup (temporary e.targets.authorization) = none)) ∧
    (entries = [] → t'.lookup e.targets.rules = none ∧ t'.lookup e.targets.authorization = none ∧
      ∀ st ∈ (e.applied object entries t).steps,
        st.call = .removeFile e.targets.rules ∨ st.call = .removeFile e.targets.authorization) := by
  intro t'
  refine ⟨fun hne => ?_, fun hnil => ?_⟩
  · obtain ⟨v, hv, hp⟩ := e.installed_of_applied object t hok hne
    exact ⟨v, hv, hp.rules, hp.authorization, hp.temporaryRules,
      fun hd => hp.temporaryAuthorization (Option.isSome_iff_ne_none.mpr hd)⟩
  · subst hnil
    have h : e.Enforced (e.foreign t) [] t' := (e.ensures_applied object [] t).of_ok hok
    unfold Enforced at h
    rw [if_pos List.isEmpty_nil] at h
    exact ⟨h.1, h.2, (e.only_apply_nil object true).mem_steps t⟩

/-- A host with a fragment of others, an old document and a staged file that was left behind. -/
def usedTree : Tree :=
  [(⟨"p"⟩, .directory 0o755), (⟨"p/localauthority.conf.d"⟩, .directory 0o755),
    (⟨"p/localauthority.conf.d/50-site.conf"⟩,
      .file "[Configuration]\nAdminIdentities=unix-user:alice\n".toUTF8 0o644),
    (⟨"p/localauthority.conf.d/99-privguard-privilege-enforcement.conf"⟩, .file "old".toUTF8 0o600),
    (⟨"s"⟩, .directory 0o755), (⟨"s/99-privguard-privilege-enforcement.new"⟩, .file "left".toUTF8 0o644)]

theorem applied_usedTree : ((Enforcer.of ⟨"s"⟩ ⟨"p"⟩).applied "HOST" [⟨.clientAdmins, "bob", false⟩] usedTree).result =
    .ok () := by decide +kernel

/-- On a used host a grant is merged with the administrators of others, and what was left behind is gone. -/
theorem apply_installs_usedTree :
    let e := Enforcer.of ⟨"s"⟩ ⟨"p"⟩
    let r := e.applied "HOST" [⟨.clientAdmins, "bob", false⟩] usedTree
    r.result = .ok () ∧ r.final.lookup (temporary e.targets.rules) = none ∧
      ∃ v, e.foreign usedTree = .ok v ∧
        r.final.lookup e.targets.authorization = (AdminPolicy.compile [⟨.clientAdmins, "bob", false⟩] v
          ).authorization.render?.map (fun document => .file document.toUTF8 0o644) := by
  obtain ⟨v, hv, _, hd, ht, _⟩ := (apply_installs _ _ _ _ applied_usedTree).1 (by decide)
  exact ⟨applied_usedTree, ht, v, hv, hd⟩

end AdminPolicy.Enforcer
