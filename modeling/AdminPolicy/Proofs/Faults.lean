import AdminPolicy.Proofs.Memory
import AdminPolicy.Proofs.Run

/-!
# Injected faults

An injector that pretends no absence never makes a removal fail as if the file were missing, whatever calls it has
decided about before. Behind such an injector a removal that finds nothing found nothing, on the states that the
injector can come to (`reportsAbsence_reached`); and a run sees no other states (`run_injecting`). A schedule of faults
is such an injector as soon as none of its faults on removals is of that kind (`pretendsNoAbsence_consult`).
-/

namespace AdminPolicy.Faults

variable {ι σ α : Type}

/-- The state of an injector after it has decided about calls. -/
def Injector.after (inject : Injector ι) (i : ι) (cs : List HostCall) : ι := cs.foldl (fun i c => (inject c i).2) i

/-- No file that is to be removed is pretended to be missing, whatever calls were decided about before. -/
def Injector.PretendsNoAbsence (inject : Injector ι) (i : ι) : Prop :=
  ∀ cs p e, (inject (.removeFile p) (inject.after i cs)).1 = some e → e.kind ≠ .notFound

/-! ## The states that an injector comes to -/

/-- The states that an injector comes to from `i`. -/
abbrev Injector.Reached (inject : Injector ι) (i : ι) : Type := { j : ι // ∃ cs, j = inject.after i cs }

/-- The injector on the states that it comes to. -/
def Injector.reached (inject : Injector ι) (i : ι) : Injector (inject.Reached i) := fun c j =>
  ((inject c j.1).1, ⟨(inject c j.1).2, by
    obtain ⟨cs, h⟩ := j.2
    exact ⟨cs ++ [c], by simp [Injector.after, h]⟩⟩)

/-- A state, forgetting how the injector came to its own. -/
def Injector.forget {inject : Injector ι} {i : ι} (x : inject.Reached i × σ) : ι × σ := (x.1.1, x.2)

/-- On the states that the injector comes to, it decides as before. -/
theorem injecting_forget (inject : Injector ι) (h : Host σ) {i : ι} (c : HostCall) (x : inject.Reached i × σ) :
    injecting inject h c (Injector.forget x) =
      ((injecting (inject.reached i) h c x).1, Injector.forget (injecting (inject.reached i) h c x).2) := by
  obtain ⟨j, t⟩ := x
  rcases hc : inject c j.1 with ⟨e?, j'⟩
  cases e? with
  | some e => simp [injecting, Injector.reached, Injector.forget, hc]
  | none => simp [injecting, Injector.reached, Injector.forget, hc]

/-- A run sees only states that the injector comes to. -/
theorem run_injecting (inject : Injector ι) (h : Host σ) (p : Program α) (i : ι) (s : σ) :
    p.run (injecting inject h) (i, s) =
      (p.run (injecting (inject.reached i) h) (⟨i, [], rfl⟩, s)).map Injector.forget :=
  Program.run_map Injector.forget (injecting_forget inject h) p (⟨i, [], rfl⟩, s)

theorem reportsAbsence_reached {inject : Injector ι} {i : ι} (hi : inject.PretendsNoAbsence i) :
    Memory.ReportsAbsence (injecting (inject.reached i) Memory.host) Prod.snd := by
  rintro p ⟨⟨j, cs, rfl⟩, t⟩ e h he
  rcases hc : inject (.removeFile p) (inject.after i cs) with ⟨e?, j'⟩
  cases e? with
  | some _ =>
    simp only [injecting, Injector.reached, hc] at h
    cases h
    exact absurd he (hi cs p e (by rw [hc]))
  | none =>
    simp only [injecting, Injector.reached, hc] at h
    exact Memory.reportsAbsence_host p t e h he

/-! ## Schedules -/

/-- A fault that decides about a call is one of the schedule, of the kind of the call. -/
theorem mem_of_consult {c : HostCall} {e : IoError} : ∀ {fs : List Fault}, (consult c fs).1 = some e →
    ∃ f ∈ fs, f.kind = .of c ∧ f.error = e
  | [], h => by cases h
  | f :: fs, h => by
    unfold consult at h
    by_cases hw : f.waitsFor c = true
    · rw [if_pos hw] at h
      have hk : f.kind = .of c := by
        simp only [Fault.waitsFor, Bool.and_eq_true, decide_eq_true_eq] at hw
        exact hw.1.1
      split at h
      · cases h
      · exact ⟨f, List.mem_cons_self, hk, Option.some.inj h⟩
    · rw [if_neg hw] at h
      obtain ⟨g, hg, hk, he⟩ := mem_of_consult h
      exact ⟨g, List.mem_cons_of_mem _ hg, hk, he⟩

/-- Deciding about a call changes only how often faults still pass and fail. -/
theorem mem_consult {c : HostCall} {f : Fault} : ∀ {fs : List Fault}, f ∈ (consult c fs).2 →
    ∃ g ∈ fs, f.kind = g.kind ∧ f.error = g.error
  | [], h => by cases h
  | g :: fs, h => by
    unfold consult at h
    by_cases hw : g.waitsFor c = true
    · rw [if_pos hw] at h
      split at h
      · rcases List.mem_cons.mp h with rfl | h
        · exact ⟨g, List.mem_cons_self, rfl, rfl⟩
        · exact ⟨f, List.mem_cons_of_mem _ h, rfl, rfl⟩
      · rcases List.mem_cons.mp h with rfl | h
        · exact ⟨g, List.mem_cons_self, rfl, rfl⟩
        · exact ⟨f, List.mem_cons_of_mem _ h, rfl, rfl⟩
    · rw [if_neg hw] at h
      rcases List.mem_cons.mp h with rfl | h
      · exact ⟨f, List.mem_cons_self, rfl, rfl⟩
      · obtain ⟨g', hg', hk⟩ := mem_consult h
        exact ⟨g', List.mem_cons_of_mem _ hg', hk⟩

theorem mem_after_consult {f : Fault} : ∀ {cs : List HostCall} {fs : List Fault}, f ∈ Injector.after consult fs cs →
    ∃ g ∈ fs, f.kind = g.kind ∧ f.error = g.error
  | [], _, h => ⟨f, h, rfl, rfl⟩
  | c :: cs, fs, h => by
    have h : f ∈ Injector.after consult (consult c fs).2 cs := h
    obtain ⟨g, hg, hk, he⟩ := mem_after_consult h
    obtain ⟨g', hg', hk', he'⟩ := mem_consult hg
    exact ⟨g', hg', hk.trans hk', he.trans he'⟩

/-- A schedule whose faults on removals are of other kinds pretends no absence. -/
theorem pretendsNoAbsence_consult {fs : List Fault}
    (h : ∀ f ∈ fs, f.kind = .removeFile → f.error.kind ≠ .notFound) : Injector.PretendsNoAbsence consult fs := by
  intro cs p e he
  obtain ⟨f, hf, hk, rfl⟩ := mem_of_consult he
  obtain ⟨g, hg, hk', he'⟩ := mem_after_consult hf
  rw [he']
  exact h g hg (hk'.symm.trans hk)

end AdminPolicy.Faults
