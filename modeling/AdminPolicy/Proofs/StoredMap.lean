import AdminPolicy.Proofs.Tree
import Mathlib.Data.List.Basic

/-!
# What is stored

A file system in memory stores its nodes in the order of their paths, one at each place (`Tree.Sorted`), so what is
stored is what is found (`Tree.Sorted.places_eq`). Every call keeps this and the shape of a tree, hence both hold after
any calls on the empty one: nothing lies in a file, directories list what lies in them, a call that fails changes
nothing, and a call that succeeds changes what it is about (`stored_after`).

The order of paths is that of lists of components, a linear order up to `HostPath.Same`.
-/

namespace AdminPolicy

open Std

/-! ## The order of paths -/

namespace HostPath

/-- The text of a name; the other components have none. -/
def Component.text : Component → String
  | .name n => n
  | _ => ""

theorem Component.order_eq :
    Component.order = compareLex (compareOn Component.rank) (compareOn Component.text) := by
  funext a b
  cases a <;> cases b <;> rfl

theorem orderOf_eq : orderOf = List.compareLex Component.order := by
  funext as bs
  induction as generalizing bs with
  | nil => cases bs <;> rfl
  | cons a as ih =>
    cases bs with
    | nil => rfl
    | cons b bs =>
      rw [orderOf, ih, List.compareLex]
      cases a.order b <;> rfl

instance : TransCmp Component.order := by
  rw [Component.order_eq]
  infer_instance

instance : LawfulEqCmp Component.order where
  eq_of_compare := by
    intro a b h
    cases a <;> cases b <;> try cases h
    case name.name m n =>
      have h : compare m n = .eq := h
      rw [LawfulEqCmp.eq_of_compare h]
    all_goals rfl

instance : TransCmp orderOf := by
  rw [orderOf_eq]
  infer_instance

instance : LawfulEqCmp orderOf := by
  rw [orderOf_eq]
  infer_instance

variable {p q r : HostPath}

/-- Paths stand at one point of the order exactly when they name the same place. -/
theorem order_eq_iff : p.order q = .eq ↔ p.Same q :=
  show orderOf p.components q.components = .eq ↔ _ from LawfulEqCmp.compare_eq_iff_eq

theorem order_lt_trans (h : p.order q = .lt) (h' : q.order r = .lt) : p.order r = .lt := by
  unfold order at *
  exact TransCmp.lt_trans h h'

theorem order_lt_of_not_same (hs : ¬ p.Same q) (h : p.order q ≠ .lt) : q.order p = .lt := by
  cases ho : p.order q with
  | lt => exact absurd ho h
  | eq => exact absurd (order_eq_iff.mp ho) hs
  | gt =>
    unfold order at *
    exact OrientedCmp.lt_of_gt ho

theorem order_lt_of_same (hs : q.Same r) (h : p.order q = .lt) : p.order r = .lt := by
  unfold order at *
  rwa [← show q.components = r.components from hs]

end HostPath

namespace Memory

open HostPath

namespace Tree

/-! ## Stored in order -/

/-- The nodes are stored in the order of their paths, one at each place. -/
def Sorted (t : Tree) : Prop := t.Pairwise fun e e' => e.1.order e'.1 = .lt

/-- What is stored, place by place. -/
def places (t : Tree) : List (List Component × Node) := t.map fun e => (e.1.components, e.2)

variable {t t' : Tree} {p : HostPath} {n : Node}

/-- What is stored after a node was put somewhere lay there before, or lies where the node was put. -/
theorem mem_put {e : HostPath × Node} (h : e ∈ t.put p n) : e ∈ t ∨ e.1.Same p := by
  induction t with
  | nil =>
    rw [put, List.mem_singleton] at h
    exact Or.inr (h ▸ Same.refl p)
  | cons e' t ih =>
    unfold put at h
    split at h
    · rcases List.mem_cons.mp h with rfl | h
      · exact Or.inr ‹_›
      · exact Or.inl (List.mem_cons_of_mem _ h)
    · split at h
      · rcases List.mem_cons.mp h with rfl | h
        · exact Or.inr (Same.refl p)
        · exact Or.inl h
      · rcases List.mem_cons.mp h with rfl | h
        · exact Or.inl List.mem_cons_self
        · exact (ih h).imp_left (List.mem_cons_of_mem _)

theorem Sorted.put (h : t.Sorted) (p : HostPath) (n : Node) : (t.put p n).Sorted := by
  induction t with
  | nil => exact List.pairwise_singleton _ _
  | cons e t ih =>
    obtain ⟨hhead, htail⟩ := List.pairwise_cons.mp h
    unfold Tree.put
    split
    · -- the place is filled already and keeps its spelling
      exact List.pairwise_cons.mpr ⟨hhead, htail⟩
    · rename_i hsame
      split
      · rename_i hlt
        refine List.pairwise_cons.mpr ⟨fun e' he' => ?_, h⟩
        rcases List.mem_cons.mp he' with rfl | he'
        · exact hlt
        · exact order_lt_trans hlt (hhead e' he')
      · -- what lies behind the head is what lay there, or the new node
        rename_i hlt
        refine List.pairwise_cons.mpr ⟨fun e' he' => ?_, ih htail⟩
        rcases mem_put he' with he' | hs
        · exact hhead e' he'
        · exact order_lt_of_same hs.symm (order_lt_of_not_same (fun hs => hsame hs.symm) hlt)

theorem Sorted.erase (h : t.Sorted) (p : HostPath) : (t.erase p).Sorted := List.Pairwise.filter _ h

theorem Sorted.putDirectories (h : t.Sorted) (p : HostPath) (m : Mode) : (t.putDirectories p m).Sorted := by
  unfold Tree.putDirectories
  induction p.ancestors generalizing t with
  | nil => exact h
  | cons a as ih =>
    refine ih ?_
    dsimp only
    split
    · exact h
    · unfold putMissing
      split
      · exact h
      · exact h.put a _

/-- Every call leaves the nodes in order. -/
theorem Sorted.host (h : t.Sorted) (c : HostCall) : (Memory.host c t).2.Sorted := by
  cases c with
  | createDirAll p m =>
    show (createDirAll p m t).2.Sorted
    unfold createDirAll
    split
    · exact h
    · exact h.putDirectories p m
  | writeFile p c m =>
    show (writeFile p c m t).2.Sorted
    unfold writeFile
    split
    · exact h
    · split
      · exact h
      · exact h.put p _
  | rename p p' =>
    show (rename p p' t).2.Sorted
    unfold rename
    split
    · exact h
    · split
      · exact h
      · split
        · exact (h.erase p).put p' _
        · exact (h.erase p).put p _
        · exact h
  | removeFile p =>
    show (removeFile p t).2.Sorted
    unfold removeFile
    split
    · exact h.erase p
    · exact h
    · exact h
  | readText _ | listDir _ | isDir _ => exact h

/-! ## Trees with the same places -/

theorem Sorted.lookup_of_mem {e : HostPath × Node} (h : t.Sorted) (he : e ∈ t) : t.lookup e.1 = some e.2 := by
  induction t with
  | nil => cases he
  | cons e' t ih =>
    obtain ⟨hhead, htail⟩ := List.pairwise_cons.mp h
    rcases List.mem_cons.mp he with rfl | he
    · simp [lookup, Same]
    · have hs : ¬ e'.1.Same e.1 := fun hs => by
        have hlt := hhead e he
        rw [order_eq_iff.mpr hs] at hlt
        cases hlt
      have ih := ih htail he
      unfold lookup at ih ⊢
      rwa [List.find?_cons_of_neg (by simpa using hs)]

theorem mem_places_of_lookup (h : t.lookup p = some n) : (p.components, n) ∈ t.places := by
  obtain ⟨e, he, rfl⟩ := Option.map_eq_some_iff.mp h
  have hs : e.1.Same p := by simpa using List.find?_some he
  exact List.mem_map.mpr ⟨e, List.mem_of_find?_eq_some he, Prod.ext hs rfl⟩

theorem Sorted.pairwise_places (h : t.Sorted) : t.places.Pairwise fun e e' => orderOf e.1 e'.1 = .lt :=
  List.pairwise_map.mpr h

theorem Sorted.nodup_places (h : t.Sorted) : t.places.Nodup :=
  h.pairwise_places.imp fun hlt heq => by
    rw [heq] at hlt
    exact OrientedCmp.not_lt_of_lt hlt hlt

theorem Sorted.places_subset (h : t.Sorted) (hl : ∀ p, t'.lookup p = t.lookup p) : t.places ⊆ t'.places := by
  intro e he
  obtain ⟨e, hmem, rfl⟩ := List.mem_map.mp he
  exact mem_places_of_lookup ((hl e.1).trans (h.lookup_of_mem hmem))

/-- **A sorted tree is what is found in it**, spelling aside. -/
theorem Sorted.places_eq (h : t.Sorted) (h' : t'.Sorted) (hl : ∀ p, t'.lookup p = t.lookup p) :
    t'.places = t.places := by
  have hperm : t'.places.Perm t.places := (List.perm_ext_iff_of_nodup h'.nodup_places h.nodup_places).mpr fun _ =>
    ⟨fun he => h'.places_subset (fun p => (hl p).symm) he, fun he => h.places_subset hl he⟩
  refine hperm.eq_of_pairwise (fun e e' _ _ hlt hgt => ?_) h'.pairwise_places h.pairwise_places
  have hlt : orderOf e.1 e'.1 = .lt := hlt
  exact absurd hgt (OrientedCmp.not_lt_of_lt hlt)

end Tree

open Memory.Tree

/-! ## What calls change -/

/-- What a call that succeeds leaves at each place. -/
def Changes (t t' : Tree) : HostCall → Prop
  | .createDirAll p m =>
    ∀ q, t'.lookup q =
      (t.lookup q).or (if ∃ a ∈ p.ancestors, a.isEmpty = false ∧ a.Same q then some (.directory m) else none)
  | .writeFile p c m => ∀ q, t'.lookup q = if p.Same q then some (.file c m) else t.lookup q
  | .rename p p' =>
    ∃ c m, t.lookup p = some (.file c m) ∧
      ∀ q, t'.lookup q = if p'.Same q then some (.file c m) else if p.Same q then none else t.lookup q
  | .removeFile p =>
    (∃ c m, t.lookup p = some (.file c m)) ∧ ∀ q, t'.lookup q = if p.Same q then none else t.lookup q
  | .readText _ | .listDir _ | .isDir _ => t' = t

variable {t t' : Tree}

theorem Effect.changes {c : HostCall} (h : Effect t t' c) : Changes t t' c := by
  cases c with
  | createDirAll p m =>
    obtain ⟨-, rfl⟩ := h
    exact fun q => lookup_putDirectories t p q m
  | writeFile p c m =>
    obtain ⟨-, -, rfl⟩ := h
    exact fun q => lookup_put t p q _
  | rename p p' =>
    obtain ⟨-, -, c, m, hs, rfl⟩ := h
    exact ⟨c, m, hs, fun q => by rw [lookup_put, lookup_erase]⟩
  | removeFile p =>
    obtain ⟨hs, rfl⟩ := h
    exact ⟨hs, fun q => lookup_erase t p q⟩
  | readText _ | listDir _ | isDir _ => exact h

/-- A call that fails leaves what is stored as it was. -/
theorem Tree.Sorted.places_of_error (h : t.Sorted) {c : HostCall} {e : IoError}
    (he : (Memory.host c t).1 = .error e) : (Memory.host c t).2.places = t.places :=
  h.places_eq (h.host c) (lookup_of_error he)

/-! ## What a tree looks like -/

namespace Tree

/-- Nothing lies in a file. -/
theorem IsTree.parent_ne_file (ht : t.IsTree) {p q : HostPath} {c : ByteArray} {m : Mode}
    (hp : t.lookup p = some (.file c m)) (hne : p.isEmpty = false) {e : HostPath × Node} (he : e ∈ t)
    (hq : e.1.parent? = some q) : ¬ q.Same p := by
  intro hs
  have hnq : q.components ≠ [] := fun h => by
    have hp : p.components = [] := Eq.trans hs.symm h
    rw [isEmpty_iff.mpr hp] at hne
    cases hne
  have hempty : q.isEmpty = false := Bool.eq_false_iff.mpr fun h => hnq (isEmpty_iff.mp h)
  obtain ⟨m', hm'⟩ := (any_isDirectory_iff.mp (ht e he q hq hempty)).congr hs
  rw [hp] at hm'
  cases hm'

/-- What lies in a directory under a name is listed there. -/
theorem mem_listDir_of_mem {dir q : HostPath} (hd : t.HasDirectory dir) {e : HostPath × Node} (he : e ∈ t)
    (hq : e.1.parent? = some q) (hs : q.Same dir) {n : String} (hn : e.1.fileName? = some n) :
    ∃ names, listDir dir t = .ok names ∧ n ∈ names := by
  obtain ⟨m, hm⟩ := hd
  unfold listDir
  rw [hm]
  refine ⟨_, rfl, List.mem_filterMap.mpr ⟨e, List.mem_filter.mpr ⟨he, ?_⟩, hn⟩⟩
  rw [hq]
  exact decide_eq_true hs

/-- The tree after calls, from the empty one. -/
def after (calls : List HostCall) : Tree := calls.foldl (fun t c => (Memory.host c t).2) []

/-- What every call keeps, holds after all of them. -/
theorem after_induction {motive : Tree → Prop} (empty : motive [])
    (step : ∀ {t}, motive t → ∀ c, motive (Memory.host c t).2) (calls : List HostCall) :
    motive (after calls) := by
  unfold after
  generalize ([] : Tree) = t at empty ⊢
  induction calls generalizing t with
  | nil => exact empty
  | cons c calls ih => exact ih _ (step empty c)

theorem isTree_after (calls : List HostCall) : (after calls).IsTree :=
  after_induction (fun _ he => by cases he) IsTree.host calls

theorem sorted_after (calls : List HostCall) : (after calls).Sorted :=
  after_induction List.Pairwise.nil Sorted.host calls

end Tree

/-- **The tree after any calls**, with paths in any spelling, and what one more call does to it. Whatever lies below a
path that is not empty lies in a directory; so nothing lies in a file, unless that is stored under the empty path, and
a directory lists what lies in it under a name. A call that fails leaves what is stored as it was, and a call that
succeeds changes what it is about and no other place. -/
theorem stored_after (calls : List HostCall) :
    let t := Tree.after calls
    (∀ e ∈ t, ∀ q, e.1.parent? = some q → q.isEmpty = false → t.HasDirectory q) ∧
    (∀ p c m, p.isEmpty = false → t.lookup p = some (.file c m) →
      ∀ e ∈ t, ∀ q, e.1.parent? = some q → ¬ q.Same p) ∧
    (∀ e ∈ t, ∀ q dir n, e.1.parent? = some q → q.Same dir → t.HasDirectory dir → e.1.fileName? = some n →
      ∃ names, listDir dir t = .ok names ∧ n ∈ names) ∧
    ∀ call : HostCall,
      (∀ e, (host call t).1 = .error e → (host call t).2.places = t.places) ∧
      ∀ r, (host call t).1 = .ok r → Changes t (host call t).2 call := by
  intro t
  have ht : t.IsTree := isTree_after calls
  refine ⟨fun e he q hq hne => any_isDirectory_iff.mp (ht e he q hq hne), ?_, ?_, fun call => ⟨?_, ?_⟩⟩
  · exact fun p c m hne hp e he q hq => ht.parent_ne_file hp hne he hq
  · exact fun e he q dir n hq hs hd hn => mem_listDir_of_mem hd he hq hs hn
  · exact fun e => (sorted_after calls).places_of_error
  · exact fun r h => (effect_of_ok h).changes

/-- A directory that is not renamed stays, under the spelling of the attempt, and a file that is renamed onto itself
stays, too. -/
theorem stored_after_spellings :
    let calls : List HostCall :=
      [.createDirAll ⟨"/etc/./sudoers.d/"⟩ 0o755, .writeFile ⟨"/etc//sudoers.d/90-admin"⟩ "#".toUTF8 0o440]
    let t := Tree.after calls
    let directory : HostCall := .rename ⟨"/etc/sudoers.d/."⟩ ⟨"/etc/old"⟩
    let file : HostCall := .rename ⟨"/etc/sudoers.d//90-admin/"⟩ ⟨"/etc/sudoers.d/90-admin"⟩
    listDir ⟨"/etc//sudoers.d/./"⟩ t = .ok ["90-admin"] ∧
      (host directory t).2.map Prod.fst ≠ t.map Prod.fst ∧ (host directory t).2.places = t.places ∧
      ∃ c m, t.lookup ⟨"/etc/sudoers.d/90-admin"⟩ = some (.file c m) ∧
        (host file t).2.lookup ⟨"/etc/sudoers.d/./90-admin"⟩ = some (.file c m) := by
  intro calls t directory file
  obtain ⟨-, -, -, hcall⟩ := stored_after calls
  refine ⟨by decide +kernel, by decide +kernel, ?_, ?_⟩
  · have hfails : (host directory t).1.isOk = false := by decide +kernel
    cases h : (host directory t).1 with
    | error e => exact (hcall directory).1 e h
    | ok r => rw [h] at hfails; cases hfails
  · have hsucceeds : (host file t).1.isOk = true := by decide +kernel
    cases h : (host file t).1 with
    | error e => rw [h] at hsucceeds; cases hsucceeds
    | ok r =>
      obtain ⟨c, m, hs, hq⟩ := (hcall file).2 r h
      refine ⟨c, m, (lookup_congr t (by decide)).trans hs, ?_⟩
      rw [hq, if_pos (by decide)]

end Memory

end AdminPolicy
