import AdminPolicy.Proofs.ByteOrder
import AdminPolicy.Proofs.Layering
import AdminPolicy.Proofs.Preview

/-!
# The administrators that others set

What reading the fragments of others comes to, on any host where calls that only look change nothing. The fragments are
read in the order of their bytes, whatever the order of the listing is. The reading is strict (`Reads.error_iff`): the
first fragment that cannot be examined, read or parsed makes the value unknown, even if a later one would have replaced
it. If there is none, the last value counts (`Reads.ok_iff`). Nothing else is looked at (`Reads.calls`), so nothing else
matters (`systemAdmins_layered`).
-/

namespace AdminPolicy

namespace Fragments

variable {σ τ : Type} {host : Host σ} {s : σ} {dir : HostPath} {keep : String → Bool}

/-! ## The calls of a reading -/

/-- A call that examines a fragment, or reads one that is no directory. -/
def Examines (snap : Snapshot) (dir : HostPath) (q : List String) (c : HostCall) : Prop :=
  ∃ n ∈ q, c = .isDir (dir.join n) ∨ c = .readText (dir.join n) ∧ snap (.isDir (dir.join n)) = .ok false

theorem Examines.cons {snap : Snapshot} {q : List String} {c : HostCall} (h : Examines snap dir q c) (n : String) :
    Examines snap dir (n :: q) c := by
  obtain ⟨m, hm, hc⟩ := h
  exact ⟨m, List.mem_cons_of_mem n hm, hc⟩

/-- Reading fragments makes no calls but to examine them. -/
theorem examines_of_mem_layerAll (hl : OnlyLooks host) {names : List String} {value : String} {st : Step σ}
    (h : st ∈ ((layerAll dir value names).program.run host s).steps) :
    Examines (snapshot host s) dir names st.call := by
  induction names generalizing value with
  | nil => exact absurd h List.not_mem_nil
  | cons n names ih =>
    unfold layerAll at h
    rcases mem_steps_bind_of_looks hl (Action.only_attempt rfl) h with h | ⟨isDir, hisDir, h⟩
    · exact ⟨n, List.mem_cons_self, Or.inl (Action.call_of_mem_attempt h)⟩
    · cases isDir with
      | true =>
        rcases mem_steps_bind_of_looks hl (Action.only_emit _) h with h | ⟨_, _, h⟩
        · exact absurd h List.not_mem_nil
        · exact (ih h).cons n
      | false =>
        have hfile : snapshot host s (.isDir (dir.join n)) = .ok false := Action.answer_of_result_attempt hisDir
        rcases mem_steps_bind_of_looks hl (Action.only_attempt rfl) h with h | ⟨source, _, h⟩
        · exact ⟨n, List.mem_cons_self, Or.inr ⟨Action.call_of_mem_attempt h, hfile⟩⟩
        · rcases mem_steps_bind_of_looks hl (only_parse _ _) h with h | ⟨file, _, h⟩
          · have hnone : (parse (dir.join n) source).program.Only fun _ => False := only_parse _ _
            exact absurd (hnone.mem_steps s st h) not_false
          · exact (ih h).cons n

/-! ## One reading -/

/-- What the reading of the fragments `q` of a directory comes to, going by what is answered. -/
structure Reads (snap : Snapshot) (dir : HostPath) (q : List String) (r : Run σ (Except PolicyError String)) :
    Prop where
  /-- The first fragment that contributes an error decides. -/
  error_iff : ∀ err, r.result = .error err ↔ ∃ before n after, q = before ++ n :: after ∧
    (∀ m ∈ before, ∃ value?, contribution snap dir m = .ok value?) ∧ contribution snap dir n = .error err
  /-- If none does, the last fragment that contributes a value decides. -/
  ok_iff : ∀ v, r.result = .ok v ↔ (∀ n ∈ q, ∃ value?, contribution snap dir n = .ok value?) ∧
    ((∃ before n after, q = before ++ n :: after ∧ contribution snap dir n = .ok (some v) ∧
      ∀ m ∈ after, contribution snap dir m = .ok none) ∨ v = "" ∧ ∀ n ∈ q, contribution snap dir n = .ok none)
  /-- The directory is listed, fragments are examined, and those that are no directories are read. -/
  calls : ∀ st ∈ r.steps, st.call = .listDir dir ∨ Examines snap dir q st.call

/-- The reading of a directory that can be listed. -/
theorem reads_layeredAdmins (hl : OnlyLooks host) {names : List String} (h : (host (.listDir dir) s).1 = .ok names) :
    Reads (snapshot host s) dir (layers keep names) ((layeredAdmins keep dir).program.run host s) := by
  have hstate : (host (.listDir dir) s).2 = s := hl _ _ rfl
  have hresult : ((layeredAdmins keep dir).program.run host s).result =
      layered (contribution (snapshot host s) dir) "" (layers keep names) := by
    simp only [layeredAdmins, Action.program_of, Program.run, h, hstate]
    exact result_layerAll (fun c hc => hl c s hc) _ _
  refine ⟨fun err => ?_, fun v => ?_, fun st hst => ?_⟩
  · rw [hresult, layered_eq_error]
  · rw [hresult, layered_eq_ok]
  · simp only [layeredAdmins, Action.program_of, Program.run, h, hstate] at hst
    rcases List.mem_cons.mp hst with rfl | hst
    · exact Or.inl rfl
    · exact Or.inr (examines_of_mem_layerAll hl hst)

/-- Where the directory cannot be listed, nothing else is tried. -/
theorem run_layeredAdmins_of_error {e : IoError} (h : (host (.listDir dir) s).1 = .error e) :
    let r := (layeredAdmins keep dir).program.run host s
    r.result = (if e.kind = .notFound then .ok "" else .error (.io .list dir e)) ∧
      ∀ st ∈ r.steps, st.call = .listDir dir := by
  simp only [layeredAdmins, Action.program_of, Program.run, h]
  split <;> exact ⟨rfl, fun st hst => by rw [List.mem_singleton.mp hst]⟩

/-! ## What does not matter -/

/-- Two hosts answer alike about a fragment; about a directory, no more than that it is one. -/
structure AnswersAlike (snap snap' : Snapshot) (p : HostPath) : Prop where
  isDir : snap' (.isDir p) = snap (.isDir p)
  readText : snap (.isDir p) = .ok false → snap' (.readText p) = snap (.readText p)

theorem AnswersAlike.contribution {snap snap' : Snapshot} {n : String} (h : AnswersAlike snap snap' (dir.join n)) :
    contribution snap' dir n = contribution snap dir n := by
  unfold Fragments.contribution
  rw [h.isDir]
  rcases hdir : snap (.isDir (dir.join n)) with e | _ | _
  · rfl
  · rw [h.readText hdir]
  · rfl

/-- **Nothing else matters**: hosts that list the same fragments, in whatever order, and answer alike about them are
read alike. -/
theorem result_layeredAdmins_congr {host' : Host τ} {s' : τ} (hl : OnlyLooks host) (hl' : OnlyLooks host')
    {names names' : List String} (h : (host (.listDir dir) s).1 = .ok names)
    (h' : (host' (.listDir dir) s').1 = .ok names')
    (hnames : ∀ n, isFragmentName n = true → keep n = true → (n ∈ names' ↔ n ∈ names))
    (halike : ∀ n ∈ layers keep names, AnswersAlike (snapshot host s) (snapshot host' s') (dir.join n)) :
    ((layeredAdmins keep dir).program.run host' s').result = ((layeredAdmins keep dir).program.run host s).result := by
  have hmem : ∀ n, n ∈ layers keep names' ↔ n ∈ layers keep names := by
    intro n
    rw [mem_layers, mem_layers]
    exact and_congr_left fun hn => hnames n hn.1 hn.2
  have hsame : layered (contribution (snapshot host' s') dir) "" (layers keep names') =
      layered (contribution (snapshot host s) dir) "" (layers keep names) := by
    refine layered_congr (pairwise_layers _) (pairwise_layers _) (fun n r _ => ?_) ""
    rw [hmem]
    exact and_congr_right fun hn => by rw [(halike n hn).contribution]
  have hstate : (host (.listDir dir) s).2 = s := hl _ _ rfl
  have hstate' : (host' (.listDir dir) s').2 = s' := hl' _ _ rfl
  simp only [layeredAdmins, Action.program_of, Program.run, h, h', hstate, hstate']
  rw [result_layerAll (fun c hc => hl c s hc), result_layerAll (fun c hc => hl' c s' hc), hsame]

/-- Where fragments are examined, neither another child of the directory nor anything in a child is. -/
theorem not_same_of_examines {snap : Snapshot} {q : List String} {c : HostCall} (hq : ∀ n ∈ q, HostPath.IsName n)
    (h : c = .listDir dir ∨ Examines snap dir q c) :
    (∀ m, HostPath.IsName m → m ∉ q → ¬ c.path.Same (dir.join m)) ∧
      ∀ n ∈ q, ∀ m, HostPath.IsName m → ¬ c.path.Same ((dir.join n).join m) := by
  have hpath : c.path = dir ∨ ∃ n ∈ q, c.path = dir.join n := by
    rcases h with rfl | ⟨n, hn, rfl | ⟨rfl, _⟩⟩
    · exact Or.inl rfl
    · exact Or.inr ⟨n, hn, rfl⟩
    · exact Or.inr ⟨n, hn, rfl⟩
  refine ⟨fun m hm hmq hsame => ?_, fun n hn m hm hsame => ?_⟩
  · rcases hpath with hp | ⟨k, hk, hp⟩
    · rw [hp, HostPath.Same, HostPath.components_join dir hm] at hsame
      simp at hsame
    · rw [hp] at hsame
      exact hmq (HostPath.name_eq_of_same_join (hq k hk) hm hsame ▸ hk)
  · rw [HostPath.Same, HostPath.components_join _ hm, HostPath.components_join dir (hq n hn)] at hsame
    rcases hpath with hp | ⟨k, hk, hp⟩
    · rw [hp] at hsame
      simp at hsame
    · rw [hp, HostPath.components_join dir (hq k hk)] at hsame
      simp at hsame

end Fragments

namespace Enforcer

open Fragments Text

variable {σ : Type} {host : Host σ}

/-- **Reading the administrators that others set**, on any host where calls that only look change nothing. No directory
sets nobody; one that cannot be listed is an error. Of a listing, in whatever order, the fragments of others count, in
the order of their bytes: the first that cannot be examined, read or parsed is the error, and else the last that sets a
value has the last word. No other child is looked at, nor anything in a child, and what is there does not matter. -/
theorem systemAdmins_layered (hl : OnlyLooks host) (s : σ) (dir : HostPath) :
    let r := (systemAdmins dir).program.run host s
    (∀ e, (host (.listDir dir) s).1 = .error e →
      r.result = (if e.kind = .notFound then .ok "" else .error (.io .list dir e)) ∧
        ∀ st ∈ r.steps, st.call = .listDir dir) ∧
    ∀ names : List String, (host (.listDir dir) s).1 = .ok names →
      let q := layers (fun n => n ≠ ownFragmentName) names
      q.Perm (names.filter fun n => isFragmentName n && decide (n ≠ ownFragmentName)) ∧
      q.Pairwise BytesLE ∧
      Reads (snapshot host s) dir q r ∧
      ((∀ n ∈ names, HostPath.IsName n) → ∀ st ∈ r.steps,
        (∀ m, HostPath.IsName m → m ∉ q → ¬ st.call.path.Same (dir.join m)) ∧
          ∀ n ∈ q, ∀ m, HostPath.IsName m → ¬ st.call.path.Same ((dir.join n).join m)) ∧
      ∀ {τ : Type} (host' : Host τ) (s' : τ) (names' : List String), OnlyLooks host' →
        (host' (.listDir dir) s').1 = .ok names' →
        (∀ n, isFragmentName n = true → n ≠ ownFragmentName → (n ∈ names' ↔ n ∈ names)) →
        (∀ n ∈ q, AnswersAlike (snapshot host s) (snapshot host' s') (dir.join n)) →
        ((systemAdmins dir).program.run host' s').result = r.result := by
  intro r
  refine ⟨fun e he => run_layeredAdmins_of_error he, fun names hnames => ?_⟩
  intro q
  have hreads : Reads (snapshot host s) dir q r := reads_layeredAdmins hl hnames
  refine ⟨List.mergeSort_perm _ _, (pairwise_layers names).imp bytesLE_of_le, hreads, fun hn st hst => ?_, ?_⟩
  · exact not_same_of_examines (fun n hq => hn n (mem_layers.mp hq).1) (hreads.calls st hst)
  · intro τ host' s' names' hl' hnames' hsame halike
    exact result_layeredAdmins_congr hl hl' hnames hnames' (fun n hf hk => hsame n hf (of_decide_eq_true hk)) halike

/-- A directory that is listed from the last name to the first. A child that is no fragment leads nowhere, and a
directory has the name of a fragment. -/
def linkedHost : Host Unit
  | .listDir _, u => (.ok ["90-b.conf", "dangling", "50-dir.conf", "20-c.conf"], u)
  | .isDir p, u =>
    (if p.text = "d/dangling" then .error ⟨.notFound, "no such file"⟩ else .ok (decide (p.text = "d/50-dir.conf")), u)
  | .readText p, u =>
    (.ok (if p.text = "d/20-c.conf" then "[Configuration]\nAdminIdentities=unix-user:c\n"
      else "[Other]\nAdminIdentities=unix-user:b\n"), u)
  | .createDirAll .., u | .writeFile .., u | .rename .., u | .removeFile _, u => (.ok (), u)

/-- The last fragment there sets nothing, and neither does the directory before it. -/
theorem systemAdmins_layered_linkedHost :
    let r := (systemAdmins ⟨"d"⟩).program.run linkedHost ()
    r.result = .ok "unix-user:c" ∧ ∀ st ∈ r.steps, ¬ st.call.path.Same ⟨"d/dangling"⟩ := by
  intro r
  have hlooks : OnlyLooks linkedHost := fun _ _ _ => rfl
  have hnames : (linkedHost (.listDir ⟨"d"⟩) ()).1 = .ok ["90-b.conf", "dangling", "50-dir.conf", "20-c.conf"] := rfl
  obtain ⟨-, hlisted⟩ := systemAdmins_layered hlooks () ⟨"d"⟩
  obtain ⟨hperm, -, hreads, hother, -⟩ := hlisted _ hnames
  have hq : layers (fun n => n ≠ ownFragmentName) ["90-b.conf", "dangling", "50-dir.conf", "20-c.conf"] =
      ["20-c.conf", "50-dir.conf", "90-b.conf"] :=
    List.Perm.eq_of_pairwise (fun _ _ _ _ => String.le_antisymm) (pairwise_layers _) (by decide +kernel)
      (hperm.trans (by decide +kernel))
  rw [hq] at hreads hother
  have hc : contribution (snapshot linkedHost ()) ⟨"d"⟩ "20-c.conf" = .ok (some "unix-user:c") := by decide +kernel
  have hdir : contribution (snapshot linkedHost ()) ⟨"d"⟩ "50-dir.conf" = .ok none := by decide +kernel
  have hb : contribution (snapshot linkedHost ()) ⟨"d"⟩ "90-b.conf" = .ok none := by decide +kernel
  refine ⟨(hreads.ok_iff _).mpr ⟨?_, Or.inl ⟨[], "20-c.conf", ["50-dir.conf", "90-b.conf"], rfl, hc, ?_⟩⟩, ?_⟩
  · simp [hc, hdir, hb]
  · simp [hdir, hb]
  · intro st hst
    obtain ⟨hchild, -⟩ := hother (by decide) st hst
    exact hchild "dangling" (by decide) (by decide)

end Enforcer

end AdminPolicy
