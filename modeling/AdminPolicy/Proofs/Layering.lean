import AdminPolicy.Fragments
import AdminPolicy.Proofs.Memory
import AdminPolicy.Proofs.Run
import Mathlib.Data.List.Dedup

/-!
# Layering

What reading fragments comes to, without the calls. A name contributes a value, nothing, or the error that ends the
reading. Layering goes through the names in order (`layered`): the first error ends it (`layered_eq_error`), and if
there is none, the last value counts (`layered_eq_ok`, `layered_eq_of_last`). It depends on the names that contribute
something alone, not on those between them or on how often a name is listed (`layered_congr`).

On any host where looking changes nothing, reading is layering what is answered about each name (`contribution`,
`result_layerAll`). In a tree in memory that is the `setting` of the name.
-/

namespace AdminPolicy.Fragments

open Memory

variable {t t' : Tree} {dir : HostPath} {keep : String → Bool}

/-- What a name of a tree contributes: nothing if it is a directory, else what its file says of the administrators. -/
def setting (t : Tree) (dir : HostPath) (name : String) : Except PolicyError (Option String) :=
  match isDir (dir.join name) t with
  | .error e => .error (.io .stat (dir.join name) e)
  | .ok true => .ok none
  | .ok false =>
    match readText (dir.join name) t with
    | .error e => .error (.io .read (dir.join name) e)
    | .ok source =>
      match KeyFile.parse source with
      | .error e => .error (.fragmentParse (dir.join name) e.line e.fault.message)
      | .ok file => .ok (file.get? Authorization.sectionName Authorization.keyName)

/-- The value after the contributions of names, in order. -/
def layered (f : String → Except PolicyError (Option String)) (value : String) : List String → Except PolicyError String
  | [] => .ok value
  | n :: ns =>
    match f n with
    | .error e => .error e
    | .ok w => layered f (w.getD value) ns

/-! ## The order of layering -/

section layered

variable {f g : String → Except PolicyError (Option String)}

theorem layered_cons_of_ok {n : String} {w : Option String} (h : f n = .ok w) (v : String) (ns : List String) :
    layered f v (n :: ns) = layered f (w.getD v) ns := by
  rw [layered, h]

theorem layered_cons_of_error {n : String} {e : PolicyError} (h : f n = .error e) (v : String) (ns : List String) :
    layered f v (n :: ns) = .error e := by
  rw [layered, h]

theorem layered_congr_of_mem {ns : List String} (h : ∀ n ∈ ns, f n = g n) (v : String) :
    layered f v ns = layered g v ns := by
  induction ns generalizing v with
  | nil => rfl
  | cons n ns ih =>
    have hns := fun w => ih (fun m hm => h m (List.mem_cons_of_mem _ hm)) w
    unfold layered
    rw [h n List.mem_cons_self]
    cases g n with
    | error _ => rfl
    | ok w => exact hns _

/-- A reading that ends well read every name. -/
theorem ok_of_layered {ns : List String} {v w : String} (h : layered f v ns = .ok w) : ∀ n ∈ ns, ∃ o, f n = .ok o := by
  induction ns generalizing v with
  | nil => exact fun _ hn => absurd hn List.not_mem_nil
  | cons m ns ih =>
    cases hm : f m with
    | error e => rw [layered_cons_of_error hm] at h; cases h
    | ok o =>
      rw [layered_cons_of_ok hm] at h
      intro n hn
      rcases List.mem_cons.mp hn with rfl | hn
      · exact ⟨o, hm⟩
      · exact ih h n hn

/-- Names that contribute the value that is there already, or nothing, leave it. -/
theorem layered_eq_self {ns : List String} {v : String} (h : ∀ n ∈ ns, f n = .ok none ∨ f n = .ok (some v)) :
    layered f v ns = .ok v := by
  induction ns with
  | nil => rfl
  | cons n ns ih =>
    have ih := ih fun m hm => h m (List.mem_cons_of_mem _ hm)
    rcases h n List.mem_cons_self with hn | hn
    · rw [layered_cons_of_ok hn]; exact ih
    · rw [layered_cons_of_ok hn]; exact ih

/-- **The first error ends the reading.** -/
theorem layered_eq_error {ns : List String} {v : String} {e : PolicyError} :
    layered f v ns = .error e ↔
      ∃ before n after, ns = before ++ n :: after ∧ (∀ m ∈ before, ∃ o, f m = .ok o) ∧ f n = .error e := by
  constructor
  · intro h
    induction ns generalizing v with
    | nil => cases h
    | cons n ns ih =>
      cases hn : f n with
      | error e' =>
        rw [layered_cons_of_error hn] at h
        cases h
        exact ⟨[], n, ns, rfl, fun _ hm => absurd hm List.not_mem_nil, hn⟩
      | ok o =>
        rw [layered_cons_of_ok hn] at h
        obtain ⟨before, m, after, rfl, hbefore, hm⟩ := ih h
        refine ⟨n :: before, m, after, rfl, fun k hk => ?_, hm⟩
        rcases List.mem_cons.mp hk with rfl | hk
        · exact ⟨o, hn⟩
        · exact hbefore k hk
  · rintro ⟨before, n, after, rfl, hbefore, hn⟩
    induction before generalizing v with
    | nil => exact layered_cons_of_error hn v after
    | cons m before ih =>
      obtain ⟨o, ho⟩ := hbefore m List.mem_cons_self
      rw [List.cons_append, layered_cons_of_ok ho]
      exact ih fun k hk => hbefore k (List.mem_cons_of_mem _ hk)

/-- **The last value counts.** A reading that ends well read every name; it comes to the value of the last name that
sets one, or to the value before it. -/
theorem layered_eq_ok {ns : List String} {v w : String} :
    layered f v ns = .ok w ↔ (∀ n ∈ ns, ∃ o, f n = .ok o) ∧
      ((∃ before n after, ns = before ++ n :: after ∧ f n = .ok (some w) ∧ ∀ m ∈ after, f m = .ok none) ∨
        w = v ∧ ∀ n ∈ ns, f n = .ok none) := by
  constructor
  · intro h
    refine ⟨ok_of_layered h, ?_⟩
    induction ns generalizing v with
    | nil =>
      cases h
      exact Or.inr ⟨rfl, fun _ hn => absurd hn List.not_mem_nil⟩
    | cons n ns ih =>
      obtain ⟨o, ho⟩ := ok_of_layered h n List.mem_cons_self
      rw [layered_cons_of_ok ho] at h
      rcases ih h with ⟨before, m, after, rfl, hm, hafter⟩ | ⟨rfl, hns⟩
      · exact Or.inl ⟨n :: before, m, after, rfl, hm, hafter⟩
      · cases o with
        | some w => exact Or.inl ⟨[], n, ns, rfl, ho, hns⟩
        | none =>
          refine Or.inr ⟨rfl, fun m hm => ?_⟩
          rcases List.mem_cons.mp hm with rfl | hm
          · exact ho
          · exact hns m hm
  · rintro ⟨hok, ⟨before, n, after, rfl, hn, hafter⟩ | ⟨rfl, hnone⟩⟩
    · induction before generalizing v with
      | nil =>
        rw [List.nil_append, layered_cons_of_ok hn]
        exact layered_eq_self fun m hm => Or.inl (hafter m hm)
      | cons m before ih =>
        obtain ⟨o, ho⟩ := hok m List.mem_cons_self
        rw [List.cons_append, layered_cons_of_ok ho]
        exact ih fun k hk => hok k (List.mem_cons_of_mem _ hk)
    · exact layered_eq_self fun n hn => Or.inl (hnone n hn)

/-- **The last value counts**: if every name can be read, the value is that of a name behind which no name sets one. -/
theorem layered_eq_of_last {ns : List String} (hs : ns.Pairwise (· ≤ ·)) (hok : ∀ n ∈ ns, ∃ o, f n = .ok o)
    {n w : String} (hn : n ∈ ns) (hw : f n = .ok (some w)) (hlast : ∀ m ∈ ns, n < m → f m = .ok none) (v : String) :
    layered f v ns = .ok w := by
  induction ns generalizing v with
  | nil => exact absurd hn List.not_mem_nil
  | cons m ns ih =>
    obtain ⟨hm, hs⟩ := List.pairwise_cons.mp hs
    obtain ⟨o, ho⟩ := hok m List.mem_cons_self
    rw [layered_cons_of_ok ho]
    by_cases hin : n ∈ ns
    · exact ih hs (fun k hk => hok k (List.mem_cons_of_mem _ hk)) hin
        (fun k hk => hlast k (List.mem_cons_of_mem _ hk)) _
    · -- it is the first name, and the names behind it are the same name or set nothing
      obtain rfl : n = m := (List.mem_cons.mp hn).resolve_right hin
      obtain rfl : o = some w := Except.ok.inj (ho.symm.trans hw)
      refine layered_eq_self fun k hk => ?_
      by_cases hkn : k = n
      · subst hkn; exact absurd hk hin
      · exact Or.inl (hlast k (List.mem_cons_of_mem _ hk)
          (Std.lt_of_le_of_ne (hm k hk) fun h => hkn h.symm))

/-- Names that contribute nothing do not count. -/
theorem layered_filter (p : String → Bool) {ns : List String} (h : ∀ n ∈ ns, p n = false → f n = .ok none)
    (v : String) : layered f v (ns.filter p) = layered f v ns := by
  induction ns generalizing v with
  | nil => rfl
  | cons n ns ih =>
    have ih := ih fun m hm => h m (List.mem_cons_of_mem _ hm)
    cases hp : p n with
    | true =>
      rw [List.filter_cons_of_pos hp]
      unfold layered
      cases f n with
      | error _ => rfl
      | ok w => exact ih _
    | false =>
      rw [List.filter_cons_of_neg (by simp [hp]), layered_cons_of_ok (h n List.mem_cons_self hp)]
      exact ih v

/-- A name that is listed twice in a row counts once. -/
theorem layered_dedup {ns : List String} (hs : ns.Pairwise (· ≤ ·)) (v : String) :
    layered f v ns.dedup = layered f v ns := by
  induction ns generalizing v with
  | nil => rfl
  | cons n ns ih =>
    obtain ⟨hn, hs⟩ := List.pairwise_cons.mp hs
    by_cases hin : n ∈ ns
    · rw [List.dedup_cons_of_mem hin, ih hs]
      -- the next name is no other
      obtain ⟨m, ms, rfl⟩ := List.exists_cons_of_ne_nil (List.ne_nil_of_mem hin)
      have hm : m = n := by
        rcases List.mem_cons.mp hin with h | h
        · exact h.symm
        · exact String.le_antisymm ((List.pairwise_cons.mp hs).1 n h) (hn m List.mem_cons_self)
      subst hm
      cases hf : f m with
      | error e => rw [layered_cons_of_error hf, layered_cons_of_error hf]
      | ok w =>
        rw [layered_cons_of_ok hf, layered_cons_of_ok hf, layered_cons_of_ok hf]
        cases w <;> rfl
    · rw [List.dedup_cons_of_notMem hin]
      unfold layered
      cases f n with
      | error _ => rfl
      | ok w => exact ih hs _

/-- **Only what is contributed counts**: two sorted listings with the same contributions come to the same. -/
theorem layered_congr {ns ns' : List String} (hs : ns.Pairwise (· ≤ ·)) (hs' : ns'.Pairwise (· ≤ ·))
    (h : ∀ n r, r ≠ .ok none → (n ∈ ns ∧ f n = r ↔ n ∈ ns' ∧ g n = r)) (v : String) :
    layered f v ns = layered g v ns' := by
  classical
  have hmem : ∀ n, n ∈ (ns.filter fun n => f n ≠ .ok none).dedup ↔ n ∈ (ns'.filter fun n => g n ≠ .ok none).dedup := by
    intro n
    simp only [List.mem_dedup, List.mem_filter, decide_eq_true_eq]
    constructor
    · rintro ⟨hn, hf⟩
      obtain ⟨hn', hg⟩ := (h n _ hf).mp ⟨hn, rfl⟩
      exact ⟨hn', hg ▸ hf⟩
    · rintro ⟨hn, hg⟩
      obtain ⟨hn', hf⟩ := (h n _ hg).mpr ⟨hn, rfl⟩
      exact ⟨hn', hf ▸ hg⟩
  have hsorted : ∀ {l : List String} (p : String → Bool), l.Pairwise (· ≤ ·) → (l.filter p).Pairwise (· ≤ ·) :=
    fun p hl => hl.filter p
  have heq : (ns.filter fun n => f n ≠ .ok none).dedup = (ns'.filter fun n => g n ≠ .ok none).dedup :=
    List.Perm.eq_of_pairwise (fun _ _ _ _ => String.le_antisymm) ((hsorted _ hs).sublist (List.dedup_sublist _))
      ((hsorted _ hs').sublist (List.dedup_sublist _))
      ((List.perm_ext_iff_of_nodup (List.nodup_dedup _) (List.nodup_dedup _)).mpr hmem)
  have hfg : ∀ n ∈ (ns.filter fun n => f n ≠ .ok none).dedup, f n = g n := by
    intro n hn
    simp only [List.mem_dedup, List.mem_filter, decide_eq_true_eq] at hn
    exact ((h n _ hn.2).mp ⟨hn.1, rfl⟩).2.symm
  calc layered f v ns
      = layered f v (ns.filter fun n => f n ≠ .ok none) := (layered_filter _ (by simp) v).symm
    _ = layered f v (ns.filter fun n => f n ≠ .ok none).dedup := (layered_dedup (hsorted _ hs) v).symm
    _ = layered g v (ns'.filter fun n => g n ≠ .ok none).dedup := by rw [layered_congr_of_mem hfg, heq]
    _ = layered g v (ns'.filter fun n => g n ≠ .ok none) := layered_dedup (hsorted _ hs') v
    _ = layered g v ns' := layered_filter _ (by simp) v

end layered

/-! ## Reading from a host -/

/-- What is answered to each call, as long as nothing changes. -/
abbrev Snapshot := (c : HostCall) → c.Answer

/-- What a host answers in a state. -/
def snapshot {σ : Type} (host : Host σ) (s : σ) : Snapshot := fun c => (host c s).1

/-- What a name contributes, going by what is answered: nothing if it is a directory, else what its file says of the
administrators. -/
def contribution (snap : Snapshot) (dir : HostPath) (name : String) : Except PolicyError (Option String) :=
  match (snap (.isDir (dir.join name)) : Except IoError Bool) with
  | .error e => .error (.io .stat (dir.join name) e)
  | .ok true => .ok none
  | .ok false =>
    match (snap (.readText (dir.join name)) : Except IoError String) with
    | .error e => .error (.io .read (dir.join name) e)
    | .ok source =>
      match KeyFile.parse source with
      | .error e => .error (.fragmentParse (dir.join name) e.line e.fault.message)
      | .ok file => .ok (file.get? Authorization.sectionName Authorization.keyName)

section contribution

variable {snap : Snapshot} {n : String}

theorem contribution_of_stat {e : IoError} (h : snap (.isDir (dir.join n)) = .error e) :
    contribution snap dir n = .error (.io .stat (dir.join n) e) := by
  rw [contribution, h]

theorem contribution_of_directory (h : snap (.isDir (dir.join n)) = .ok true) : contribution snap dir n = .ok none := by
  rw [contribution, h]

theorem contribution_of_read {e : IoError} (h : snap (.isDir (dir.join n)) = .ok false)
    (hr : snap (.readText (dir.join n)) = .error e) :
    contribution snap dir n = .error (.io .read (dir.join n) e) := by
  rw [contribution, h, hr]

theorem contribution_of_parse {source : String} {e : KeyFile.SyntaxError} (h : snap (.isDir (dir.join n)) = .ok false)
    (hr : snap (.readText (dir.join n)) = .ok source) (hp : KeyFile.parse source = .error e) :
    contribution snap dir n = .error (.fragmentParse (dir.join n) e.line e.fault.message) := by
  simp only [contribution, h, hr, hp]

theorem contribution_of_file {source : String} {file : KeyFile} (h : snap (.isDir (dir.join n)) = .ok false)
    (hr : snap (.readText (dir.join n)) = .ok source) (hp : KeyFile.parse source = .ok file) :
    contribution snap dir n = .ok (file.get? Authorization.sectionName Authorization.keyName) := by
  simp only [contribution, h, hr, hp]

end contribution

section reading

variable {σ : Type} {host : Host σ} {s : σ}

/-- **Reading fragments** one after the other comes to layering what they contribute, on a host where looking changes
nothing. -/
theorem result_layerAll (hl : ∀ c, c.isMutation = false → (host c s).2 = s) (names : List String) (value : String) :
    ((layerAll dir value names).program.run host s).result =
      layered (contribution (snapshot host s) dir) value names := by
  induction names generalizing value with
  | nil => rfl
  | cons n names ih =>
    cases hd : (host (.isDir (dir.join n)) s).1 with
    | error e =>
      rw [layered_cons_of_error (contribution_of_stat hd)]
      exact Action.result_bind_of_error (Action.result_attempt_of_error hd) _
    | ok b =>
      refine (Action.result_bind_of_ok (Action.result_attempt_of_ok hd) _).trans ?_
      rw [Action.final_attempt, hl _ rfl]
      cases b with
      | true =>
        rw [layered_cons_of_ok (contribution_of_directory hd)]
        exact ih value
      | false =>
        cases hr : (host (.readText (dir.join n)) s).1 with
        | error e =>
          rw [layered_cons_of_error (contribution_of_read hd hr)]
          exact Action.result_bind_of_error (Action.result_attempt_of_error hr) _
        | ok source =>
          refine (Action.result_bind_of_ok (Action.result_attempt_of_ok hr) _).trans ?_
          rw [Action.final_attempt, hl _ rfl]
          cases hp : KeyFile.parse source with
          | error e =>
            rw [layered_cons_of_error (contribution_of_parse hd hr hp)]
            exact Action.result_bind_of_error (by unfold parse; rw [hp]; rfl) _
          | ok file =>
            have hparse : parse (dir.join n) source = pure file := by unfold parse; rw [hp]
            rw [layered_cons_of_ok (contribution_of_file hd hr hp), hparse, ← ih]
            rfl

end reading

/-! ## The names of a listing -/

theorem mem_layers {names : List String} {n : String} :
    n ∈ layers keep names ↔ n ∈ names ∧ isFragmentName n = true ∧ keep n = true := by
  simp [layers]

theorem pairwise_layers (names : List String) : (layers keep names).Pairwise (· ≤ ·) := by
  have h : (layers keep names).Pairwise fun a b => decide (a ≤ b) = true := by
    refine List.pairwise_mergeSort (fun a b c hab hbc => ?_) (fun a b => ?_) _
    · exact decide_eq_true (String.le_trans (of_decide_eq_true hab) (of_decide_eq_true hbc))
    · simpa using String.le_total a b
  exact h.imp of_decide_eq_true

/-- A directory lists the names under which something lies in it. -/
theorem mem_listDir {names : List String} (h : listDir dir t = .ok names) {n : String} :
    n ∈ names ↔ HostPath.IsName n ∧ t.lookup (dir.join n) ≠ none := by
  unfold listDir at h
  split at h
  · obtain rfl := Except.ok.inj h
    simp only [List.mem_filterMap, List.mem_filter, Option.any_eq_true, decide_eq_true_eq]
    constructor
    · rintro ⟨e, ⟨he, q, hq, hd⟩, hn⟩
      refine ⟨HostPath.isName_of_fileName? hn, ?_⟩
      rw [← Option.isSome_iff_ne_none, Tree.lookup_isSome_iff]
      exact ⟨e, he, HostPath.same_join_of_parent? hq hd hn⟩
    · rintro ⟨hn, hl⟩
      rw [← Option.isSome_iff_ne_none, Tree.lookup_isSome_iff] at hl
      obtain ⟨e, he, hs⟩ := hl
      obtain ⟨q, hq, hd⟩ := HostPath.exists_parent?_of_same_join hn hs
      refine ⟨e, ⟨he, q, hq, hd⟩, ?_⟩
      have hname : e.1.fileName? = (dir.join n).fileName? := by
        unfold HostPath.fileName?
        rw [hs]
      rw [hname, HostPath.fileName?_join dir hn]
  · cases h
  · cases h

/-! ## What a reading comes to -/

theorem setting_congr {n : String} (h : t'.lookup (dir.join n) = t.lookup (dir.join n)) :
    setting t' dir n = setting t dir n := by
  unfold setting isDir readText readBytes
  rw [h]

theorem setting_of_directory {n : String} {m : Mode} (h : t.lookup (dir.join n) = some (.directory m)) :
    setting t dir n = .ok none := by
  unfold setting isDir
  rw [h]
  rfl

theorem setting_of_none {n : String} (h : t.lookup (dir.join n) = none) :
    setting t dir n = .error (.io .stat (dir.join n) (notFound (dir.join n))) := by
  unfold setting isDir
  rw [h]

/-- The setting of a file that holds a text. -/
theorem setting_of_file {n : String} {text : String} {m : Mode} {file : KeyFile}
    (h : t.lookup (dir.join n) = some (.file text.toUTF8 m)) (hp : KeyFile.parse text = .ok file) :
    setting t dir n = .ok (file.get? Authorization.sectionName Authorization.keyName) := by
  unfold setting isDir readText readBytes
  rw [h]
  simp only [Node.isDirectory, bind, Except.bind, Text.decode_toUTF8, hp]

/-- What a name contributes in memory is its setting. -/
theorem contribution_memory (t : Tree) (dir : HostPath) (n : String) :
    contribution (snapshot host t) dir n = setting t dir n := by
  unfold contribution setting
  have hdir : snapshot host t (.isDir (dir.join n)) = isDir (dir.join n) t := rfl
  have htext : snapshot host t (.readText (dir.join n)) = readText (dir.join n) t := rfl
  rw [hdir, htext]
  rcases isDir (dir.join n) t with e | _ | _
  · rfl
  · cases readText (dir.join n) t with
    | error e => rfl
    | ok source => cases hp : KeyFile.parse source <;> simp only [hp]
  · rfl

/-- Reading fragments one after the other comes to layering their settings. -/
theorem run_layerAll (t : Tree) (dir : HostPath) (names : List String) (value : String) :
    ((layerAll dir value names).program.run host t).result = layered (setting t dir) value names := by
  have hlooks : ∀ c, c.isMutation = false → (host c t).2 = t := by
    intro c hc
    cases c <;> first | rfl | cases hc
  rw [result_layerAll hlooks]
  exact layered_congr_of_mem (fun n _ => contribution_memory t dir n) value

/-- Reading the fragments of a directory that can be listed. -/
theorem run_layeredAdmins_of_listDir {names : List String} (h : listDir dir t = .ok names) :
    ((layeredAdmins keep dir).program.run host t).result = layered (setting t dir) "" (layers keep names) := by
  rw [← run_layerAll]
  simp only [layeredAdmins, Action.program_of, Program.run, host, h]

/-- Nobody is set where there is no directory of fragments. -/
theorem run_layeredAdmins_of_none (h : t.lookup dir = none) :
    ((layeredAdmins keep dir).program.run host t).result = .ok "" := by
  have hl : listDir dir t = .error (notFound dir) := by unfold listDir; rw [h]
  simp only [layeredAdmins, Action.program_of, Program.run, host, hl]
  rfl

/-- A file is no directory of fragments. -/
theorem run_layeredAdmins_of_file {c : ByteArray} {m : Mode} (h : t.lookup dir = some (.file c m)) :
    ((layeredAdmins keep dir).program.run host t).result = .error (.io .list dir (notADirectory dir)) := by
  have hl : listDir dir t = .error (notADirectory dir) := by unfold listDir; rw [h]
  simp only [layeredAdmins, Action.program_of, Program.run, host, hl]
  rfl

theorem listDir_of_directory {m : Mode} (h : t.lookup dir = some (.directory m)) :
    ∃ names, listDir dir t = .ok names := by
  unfold listDir
  rw [h]
  exact ⟨_, rfl⟩

end AdminPolicy.Fragments
