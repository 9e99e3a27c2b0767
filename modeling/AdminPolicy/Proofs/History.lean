import AdminPolicy.Proofs.Reading
import AdminPolicy.Proofs.Transition

/-!
# Independence of history

What a successful application leaves at the targets depends on its entries and on what others have set, and on nothing
that earlier applications did, whether they succeeded or failed at any of their calls (`apply_history`). The invariant
is that the tree grows only outside the four places of the applications (`grewOutside_applyAll`), so reading what
others have set comes to the same at every point of a history.
-/

namespace AdminPolicy

open Memory Faults

/-- What an application is asked for. -/
structure Request where
  object : String
  isComputer : Bool
  entries : List Entry
  deriving DecidableEq, Repr

namespace Enforcer

variable {σ : Type} {host : Host σ} {tree : σ → Tree} (e : Enforcer)

/-- The state after applications one after the other, each of them run to its end, whatever that is. -/
def applyAll (host : Host σ) (s : σ) : List Request → σ
  | [] => s
  | r :: rs => applyAll host ((e.apply r.object r.isComputer r.entries).program.run host s).final rs

/-- A history lets the tree grow only outside the places of its applications. -/
theorem grewOutside_applyAll (hb : Backed host tree) (s : σ) (rs : List Request) :
    (tree s).GrewOutside e.targets (tree (e.applyAll host s rs)) := by
  induction rs generalizing s with
  | nil => exact .refl _ _
  | cons r rs ih => exact (e.grewOutside_apply hb r.object r.isComputer r.entries s).trans (ih _)

/-- What is in place for the same entries and the same reading is the same. -/
theorem Enforced.lookup_eq {read : Except PolicyError String} {entries : List Entry} {t t' : Tree}
    (h : e.Enforced read entries t) (h' : e.Enforced read entries t') :
    t.lookup e.targets.rules = t'.lookup e.targets.rules ∧
      t.lookup e.targets.authorization = t'.lookup e.targets.authorization := by
  unfold Enforced at h h'
  by_cases hempty : entries.isEmpty = true
  · rw [if_pos hempty] at h h'
    exact ⟨h.1.trans h'.1.symm, h.2.trans h'.2.symm⟩
  · rw [if_neg hempty] at h h'
    obtain ⟨v, hv, hp⟩ := h
    obtain ⟨v', hv', hp'⟩ := h'
    obtain rfl : v = v' := Except.ok.inj (hv.symm.trans hv')
    exact ⟨hp.rules.trans hp'.rules.symm, hp.authorization.trans hp'.authorization.symm⟩

/-- What others have set is read as before. -/
theorem foreign_of_grewOutside (sudoers polkit : HostPath) {t t' : Tree} (ht : t.IsTree)
    (hg : t.GrewOutside (Enforcer.of sudoers polkit).targets t') :
    (Enforcer.of sudoers polkit).foreign t' = (Enforcer.of sudoers polkit).foreign t :=
  run_systemAdmins_of_grewOutside sudoers polkit ht hg

theorem grewOutside_applied (object : String) (entries : List Entry) (t : Tree) :
    t.GrewOutside e.targets (e.applied object entries t).final :=
  e.grewOutside_apply backed_host object true entries t

/-- **A success depends on no history.** On a tree let any applications go before, to computers or users, any of their
calls failing. What others have set is read as before them. An application that then succeeds leaves at both targets
what it would have left at once, if it succeeds then; and applying the same entries again leaves both files alone, at
every point. -/
theorem apply_history {ι : Type} (inject : Injector ι) (i : ι) (sudoers polkit : HostPath) (rs : List Request)
    (object : String) (entries : List Entry) (t : Tree) (ht : t.IsTree) :
    let e := Enforcer.of sudoers polkit
    let t' := (e.applyAll (injecting inject Memory.host) (i, t) rs).2
    let later := e.applied object entries t'
    let direct := e.applied object entries t
    e.foreign t' = e.foreign t ∧
      (later.result = .ok () → direct.result = .ok () →
        later.final.lookup e.targets.rules = direct.final.lookup e.targets.rules ∧
          later.final.lookup e.targets.authorization = direct.final.lookup e.targets.authorization) ∧
      (later.result = .ok () → ∀ s ∈ (e.applied object entries later.final).states later.final,
        e.targets.files s = e.targets.files later.final) := by
  intro e t' later direct
  have hgrew : t.GrewOutside e.targets t' := e.grewOutside_applyAll (backed_injecting inject) (i, t) rs
  have hforeign : e.foreign t' = e.foreign t := foreign_of_grewOutside sudoers polkit ht hgrew
  have hlater : later.result = .ok () → e.Enforced (e.foreign t) entries later.final := fun hok => by
    rw [← hforeign]
    exact (e.ensures_applied object entries t').of_ok hok
  refine ⟨hforeign, fun hok hok' => ?_, fun hok s hs => ?_⟩
  · exact (hlater hok).lookup_eq e ((e.ensures_applied object entries t).of_ok hok')
  · -- the second application aims for the files that are there
    have hagain : e.foreign later.final = e.foreign t :=
      foreign_of_grewOutside sudoers polkit ht (hgrew.trans (e.grewOutside_applied object entries t'))
    have haim : e.aim Memory.host later.final entries = .ok (e.targets.files later.final) := by
      refine Enforced.files_eq e ?_
      show e.Enforced (e.foreign later.final) entries _
      rw [hagain]
      exact hlater hok
    have hstates := (e.ensures_applied object entries later.final).mem_states (Or.inl rfl) (fun _ s₁ h₁ => ?_)
      (fun _ _ h₁ => h₁.1) s hs
    · rw [haim] at hstates
      exact hstates.eq_self
    · exact Or.inr ⟨_, Enforced.files_eq e h₁, Or.inr rfl⟩

/-- The requests of a history: a grant to the computer, and one to a user. -/
def twoRequests : List Request :=
  [⟨"HOST", true, [⟨.clientAdmins, "carol", false⟩]⟩, ⟨"eve", false, [⟨.clientAdmins, "eve", false⟩]⟩]

theorem applied_after_twoRequests : ((Enforcer.of ⟨"s"⟩ ⟨"p"⟩).applied "HOST" [⟨.clientAdmins, "bob", false⟩]
    ((Enforcer.of ⟨"s"⟩ ⟨"p"⟩).applyAll (injecting consult Memory.host) (secondRenameDenied, usedTree) twoRequests).2
    ).result = .ok () := by decide +kernel

/-- A document that could not be moved, and a request for a user, change nothing about a later grant. -/
theorem apply_history_usedTree :
    let e := Enforcer.of ⟨"s"⟩ ⟨"p"⟩
    let later := e.applied "HOST" [⟨.clientAdmins, "bob", false⟩]
      (e.applyAll (injecting consult Memory.host) (secondRenameDenied, usedTree) twoRequests).2
    let direct := e.applied "HOST" [⟨.clientAdmins, "bob", false⟩] usedTree
    usedTree.IsTree ∧ later.result = .ok () ∧ direct.result = .ok () ∧
      later.final.lookup e.targets.rules = direct.final.lookup e.targets.rules ∧
      later.final.lookup e.targets.authorization = direct.final.lookup e.targets.authorization := by
  have ht : usedTree.IsTree := by decide +kernel
  have h := apply_history consult secondRenameDenied ⟨"s"⟩ ⟨"p"⟩ twoRequests "HOST" [⟨.clientAdmins, "bob", false⟩]
    usedTree ht
  exact ⟨ht, applied_after_twoRequests, applied_usedTree, h.2.1 applied_after_twoRequests applied_usedTree⟩

end Enforcer

end AdminPolicy
