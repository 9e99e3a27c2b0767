import AdminPolicy.Host.Posix
import AdminPolicy.Proofs.Path
import Mathlib.Data.List.Induction
import Mathlib.Data.List.MinMax

/-!
# Walking

How a walk over names, `..` and links comes to a directory, as a relation without an order of search (`Enters`), with
the places of the links that it meets. A walk that ends in a directory is one (`enters_of_walk`), and a walk to an entry
of a directory enters that directory first (`enters_of_walk_append`). Where the way leads is decided by the links alone
(`Enters.route_eq`): `route` finds it where directories are missing that are still to be made. What changes at places
that are no directories, and no links on the way, leaves the way as it is (`Enters.frame`).
-/

namespace AdminPolicy.Posix

variable {s s' : State} {making : Bool} {links : Nat} {here d w : Place} {steps : List String} {n : String}
  {met : List Place}

/-! ## Looking up -/

namespace State

theorem binding?_of_ne_nil (s : State) {q : Place} (hq : q ≠ []) :
    s.binding? q = (s.bindings.find? fun e => e.1 = q).map Prod.snd := if_neg hq

/-- Without what stands at a place, all else is found as before. -/
theorem find?_filter_ne (l : List (Place × Binding)) (w q : Place) :
    (l.filter fun e => e.1 ≠ w).find? (fun e => e.1 = q) = if q = w then none else l.find? fun e => e.1 = q := by
  rw [List.find?_filter]
  by_cases hqw : q = w
  · simp [hqw]
  · rw [if_neg hqw]
    congr 1
    funext e
    by_cases he : e.1 = q <;> simp [he, hqw]

theorem binding?_erase (s : State) {w : Place} (hw : w ≠ []) (q : Place) :
    (s.erase w).binding? q = if q = w then none else s.binding? q := by
  by_cases hq : q = []
  · subst hq
    rw [if_neg (Ne.symm hw)]
    rfl
  · rw [binding?_of_ne_nil _ hq, binding?_of_ne_nil _ hq, erase, find?_filter_ne]
    split <;> rfl

theorem binding?_put (s : State) {w : Place} (hw : w ≠ []) (b : Binding) (q : Place) :
    (s.put w b).binding? q = if q = w then some b else s.binding? q := by
  have hrest := s.binding?_erase hw q
  by_cases hq : q = []
  · subst hq
    rw [if_neg (Ne.symm hw)]
    rfl
  · rw [binding?_of_ne_nil _ hq] at hrest ⊢
    by_cases hqw : q = w
    · simp [put, hqw]
    · rw [if_neg hqw] at hrest ⊢
      rw [← hrest]
      simp [put, erase, Ne.symm hqw]

theorem lookup_put (s : State) {w : Place} (hw : w ≠ []) (b : Binding) (q : Place) :
    (s.put w b).lookup q = if q = w then some (s.resolve b) else s.lookup q := by
  unfold lookup
  rw [binding?_put s hw]
  split <;> rfl

theorem lookup_erase (s : State) {w : Place} (hw : w ≠ []) (q : Place) :
    (s.erase w).lookup q = if q = w then none else s.lookup q := by
  unfold lookup
  rw [binding?_erase s hw]
  split <;> rfl

/-! ## Inodes -/

theorem inode?_eq_some {q : Place} {k : Nat} : s.inode? q = some k ↔ s.binding? q = some (.inode k) := by
  unfold inode?
  cases s.binding? q with
  | none => simp
  | some b => cases b <;> simp [Binding.number?]

theorem lookup_of_inode? {q : Place} {k : Nat} (h : s.inode? q = some k) : s.lookup q = some (s.inodes k).node := by
  unfold lookup
  rw [inode?_eq_some.mp h]
  rfl

theorem sameFile_iff {p q : Place} : s.SameFile p q ↔ ∃ k, s.inode? p = some k ∧ s.inode? q = some k := by
  unfold SameFile
  cases s.inode? p <;> simp [eq_comm]

theorem SameFile.symm {p q : Place} (h : s.SameFile p q) : s.SameFile q p := by
  obtain ⟨k, hp, hq⟩ := sameFile_iff.mp h
  exact sameFile_iff.mpr ⟨k, hq, hp⟩

/-- The names of an inode show the same. -/
theorem SameFile.lookup_eq {p q : Place} (h : s.SameFile p q) : s.lookup p = s.lookup q := by
  obtain ⟨k, hp, hq⟩ := sameFile_iff.mp h
  rw [lookup_of_inode? hp, lookup_of_inode? hq]

/-- No name stands for a fresh number. -/
theorem lt_fresh_of_inode? {q : Place} {k : Nat} (h : s.inode? q = some k) : k < s.fresh := by
  have hb := inode?_eq_some.mp h
  have hq : q ≠ [] := by
    rintro rfl
    cases hb
  rw [binding?_of_ne_nil _ hq] at hb
  obtain ⟨e, he, hk⟩ := Option.map_eq_some_iff.mp hb
  have hmem : k ∈ s.bindings.filterMap fun e => e.2.number? :=
    List.mem_filterMap.mpr ⟨e, List.mem_of_find?_eq_some he, by rw [hk]; rfl⟩
  exact Nat.lt_succ_of_le (List.le_max_of_le' 0 hmem (Nat.le_refl k))

/-- The number that is stored under is borne by other names of the same file alone. -/
theorem sameFile_of_inode?_eq {w q : Place} (h : s.inode? q = some ((s.inode? w).getD s.fresh)) : s.SameFile q w := by
  cases hw : s.inode? w with
  | none =>
    rw [hw] at h
    exact absurd (lt_fresh_of_inode? h) (Nat.lt_irrefl _)
  | some k =>
    rw [hw] at h
    exact sameFile_iff.mpr ⟨k, h, hw⟩

theorem inode?_store (s : State) {w : Place} (hw : w ≠ []) (i : Inode) (q : Place) :
    (s.store w i).inode? q = if q = w then some ((s.inode? w).getD s.fresh) else s.inode? q := by
  have hb : (s.store w i).binding? q =
      if q = w then some (.inode ((s.inode? w).getD s.fresh)) else s.binding? q := binding?_put s hw _ q
  unfold inode? at hb ⊢
  rw [hb]
  split <;> rfl

/-- **Storing** shows under all names of the file and under no other name. -/
theorem lookup_store (s : State) {w : Place} (hw : w ≠ []) (i : Inode) (q : Place) :
    (s.store w i).lookup q = if q = w ∨ s.SameFile q w then some i.node else s.lookup q := by
  have hstored : (s.store w i).inodes ((s.inode? w).getD s.fresh) = i := if_pos rfl
  have hinode := inode?_store s hw i q
  by_cases hqw : q = w
  · rw [if_pos hqw] at hinode
    rw [if_pos (Or.inl hqw), lookup_of_inode? hinode, hstored]
  rw [if_neg hqw] at hinode
  cases hq : s.inode? q with
  | none =>
    -- what is no inode stays, whatever inodes hold
    have hnot : ¬ (q = w ∨ s.SameFile q w) := by simp [hqw, SameFile, hq]
    have hb : (s.store w i).binding? q = s.binding? q := (binding?_put s hw _ q).trans (if_neg hqw)
    rw [if_neg hnot]
    unfold lookup
    rw [hb]
    cases hbq : s.binding? q with
    | none => rfl
    | some b =>
      cases b with
      | directory m => rfl
      | inode k =>
        rw [inode?_eq_some.mpr hbq] at hq
        cases hq
  | some k =>
    rw [hq] at hinode
    rw [lookup_of_inode? hinode]
    by_cases hsame : s.SameFile q w
    · obtain ⟨k', hk, hk'⟩ := sameFile_iff.mp hsame
      obtain rfl : k = k' := Option.some.inj (hq.symm.trans hk)
      rw [hk', Option.getD_some] at hstored
      rw [if_pos (Or.inr hsame), hstored]
    · have hother : k ≠ (s.inode? w).getD s.fresh := by
        rintro rfl
        exact hsame (sameFile_of_inode?_eq hq)
      rw [if_neg (by simp [hqw, hsame]), lookup_of_inode? hq]
      exact congrArg (fun i : Inode => some i.node) (if_neg hother)

/-- Two names share an inode after a file was stored only if they did before. -/
theorem sameFile_of_store {w p q : Place} (hw : w ≠ []) {i : Inode} (hpq : p ≠ q) (h : (s.store w i).SameFile p q) :
    s.SameFile p q := by
  obtain ⟨k, hp, hq⟩ := sameFile_iff.mp h
  rw [inode?_store s hw] at hp hq
  by_cases hpw : p = w
  · subst hpw
    rw [if_pos rfl] at hp
    rw [if_neg hpq.symm] at hq
    exact (sameFile_of_inode?_eq (hq.trans hp.symm)).symm
  · rw [if_neg hpw] at hp
    by_cases hqw : q = w
    · subst hqw
      rw [if_pos rfl] at hq
      exact sameFile_of_inode?_eq (hp.trans hq.symm)
    · rw [if_neg hqw] at hq
      exact sameFile_iff.mpr ⟨k, hp, hq⟩

/-! ## Directories and links -/

/-- There is a directory at the place. -/
def IsDirectoryAt (s : State) (here : Place) : Prop := ∃ m, s.lookup here = some (.directory m)

/-- What the link at a place says, if there is one. -/
def link? (s : State) (here : Place) : Option String :=
  match s.lookup here with
  | some (.link target) => some target
  | _ => none

/-- The place and all places above it are directories. -/
def Reached (s : State) (here : Place) : Prop := ∀ q, q <+: here → s.IsDirectoryAt q

theorem link?_eq_some {q : Place} {target : String} :
    s.link? q = some target ↔ s.lookup q = some (.link target) := by
  unfold link?
  cases s.lookup q with
  | none => simp
  | some node => cases node <;> simp

theorem link?_of_lookup {q : Place} {node : Node} (h : s.lookup q = some node) (hnode : ∀ target, node ≠ .link target) :
    s.link? q = none := by
  rw [Option.eq_none_iff_forall_ne_some]
  intro target hlink
  rw [link?_eq_some, h] at hlink
  exact hnode target (Option.some.inj hlink)

theorem link?_of_none {q : Place} (h : s.lookup q = none) : s.link? q = none := by
  unfold link?
  rw [h]

theorem link?_of_file {q : Place} {c : ByteArray} {m : Mode} (h : s.lookup q = some (.file c m)) : s.link? q = none :=
  link?_of_lookup h nofun

theorem IsDirectoryAt.link? {q : Place} (h : s.IsDirectoryAt q) : s.link? q = none := by
  obtain ⟨m, hm⟩ := h
  exact link?_of_lookup hm nofun

theorem link?_congr {q q' : Place} (h : s'.lookup q' = s.lookup q) : s'.link? q' = s.link? q := by
  unfold State.link?
  rw [h]

theorem not_isDirectoryAt_of_file {q : Place} {c : ByteArray} {m : Mode} (h : s.lookup q = some (.file c m)) :
    ¬ s.IsDirectoryAt q := by
  rintro ⟨m', hm'⟩
  rw [h] at hm'
  cases hm'

theorem isDirectoryAt_nil (s : State) : s.IsDirectoryAt [] := ⟨_, rfl⟩

theorem reached_nil (s : State) : s.Reached [] := by
  intro q hq
  rw [List.prefix_nil.mp hq]
  exact s.isDirectoryAt_nil

theorem Reached.isDirectoryAt (h : s.Reached here) : s.IsDirectoryAt here := h here (List.prefix_refl here)

theorem Reached.dropLast (h : s.Reached here) : s.Reached here.dropLast :=
  fun q hq => h q (hq.trans (List.dropLast_prefix here))

theorem reached_concat : s.Reached (here ++ [n]) ↔ s.Reached here ∧ s.IsDirectoryAt (here ++ [n]) := by
  constructor
  · intro h
    exact ⟨fun q hq => h q (hq.trans (List.prefix_append here [n])), h.isDirectoryAt⟩
  · rintro ⟨h, hn⟩ q hq
    rcases List.prefix_concat_iff.mp hq with rfl | hq
    · exact hn
    · exact h q hq

/-- Above a place in a reached directory there is nothing but directories. -/
theorem Reached.eq_of_prefix (h : s.Reached here) {a : Place} (ha : ¬ s.IsDirectoryAt a) (hp : a <+: here ++ [n]) :
    here ++ [n] = a := by
  rcases List.prefix_concat_iff.mp hp with rfl | hp
  · rfl
  · exact absurd (h a hp) ha

end State

/-! ## One step of a walk -/

theorem walk_nil : walk s making links here [] = .ok here := by
  cases links <;> rfl

theorem walk_cons (name : String) (rest : List String) : walk s making links here (name :: rest) =
    if name = "" || name = "." then walk s making links here rest
    else if name = ".." then walk s making links here.dropLast rest
    else if making && rest = [""] then .error .isADirectory
    else if maxNameBytes < name.utf8ByteSize then .error .nameTooLong
    else
      match s.lookup (here ++ [name]) with
      | none => if rest = [] then .ok (here ++ [name]) else .error .notFound
      | some (.directory _) => walk s making links (here ++ [name]) rest
      | some (.file ..) => if rest = [] then .ok (here ++ [name]) else .error .notADirectory
      | some (.link target) =>
        match links with
        | 0 => .error .tooManyLinks
        | links + 1 => walk s making links (if isAbsolute target then [] else here) (stepsOf target ++ rest) := by
  cases links <;> rfl

/-- What holds at the end of a walk, and before a step if it holds behind it with as many links left, or at any place
with fewer, holds of all walks. -/
theorem walk_induction {P : Nat → Place → List String → Prop} (nil : ∀ links here, P links here [])
    (cons : ∀ links here name rest, (∀ here', P links here' rest) →
      (∀ links' here' steps', links' < links → P links' here' steps') → P links here (name :: rest))
    (links : Nat) (here : Place) (steps : List String) : P links here steps := by
  induction links using Nat.strongRecOn generalizing here steps with
  | ind links ihl =>
    induction steps generalizing here with
    | nil => exact nil links here
    | cons name rest ih => exact cons links here name rest ih fun links' here' steps' h => ihl links' h here' steps'

/-- A name that can stand for an entry of a directory. -/
structure IsEntryName (n : String) : Prop where
  ne_empty : n ≠ ""
  ne_dot : n ≠ "."
  ne_dots : n ≠ ".."
  size : n.utf8ByteSize ≤ maxNameBytes

/-- A step to an entry looks it up. -/
theorem walk_entry_cons (hn : IsEntryName n) {rest : List String} (hr : (making && decide (rest = [""])) = false) :
    walk s making links here (n :: rest) =
      match s.lookup (here ++ [n]) with
      | none => if rest = [] then .ok (here ++ [n]) else .error .notFound
      | some (.directory _) => walk s making links (here ++ [n]) rest
      | some (.file ..) => if rest = [] then .ok (here ++ [n]) else .error .notADirectory
      | some (.link target) =>
        match links with
        | 0 => .error .tooManyLinks
        | links + 1 => walk s making links (if isAbsolute target then [] else here) (stepsOf target ++ rest) := by
  rw [walk_cons, if_neg (by simp [hn.ne_empty, hn.ne_dot]), if_neg hn.ne_dots, if_neg (by simp [hr]),
    if_neg (Nat.not_lt.mpr hn.size)]

/-- Steps lead from a directory to another one, over directories and no more than so many links, which stand at the
places that are met. -/
inductive Enters (s : State) : Nat → Place → List String → Place → List Place → Prop where
  | done (links : Nat) (here : Place) : Enters s links here [] here []
  | stay {links : Nat} {here d : Place} {name : String} {rest : List String} {met : List Place}
    (h : name = "" ∨ name = ".") (hr : Enters s links here rest d met) : Enters s links here (name :: rest) d met
  | up {links : Nat} {here d : Place} {rest : List String} {met : List Place}
    (hr : Enters s links here.dropLast rest d met) : Enters s links here (".." :: rest) d met
  | down {links : Nat} {here d : Place} {name : String} {rest : List String} {met : List Place}
    (hn : IsEntryName name) (hl : s.IsDirectoryAt (here ++ [name])) (hr : Enters s links (here ++ [name]) rest d met) :
    Enters s links here (name :: rest) d met
  | link {links : Nat} {here d : Place} {name target : String} {rest : List String} {met : List Place}
    (hn : IsEntryName name) (hl : s.link? (here ++ [name]) = some target)
    (hr : Enters s links (if isAbsolute target then [] else here) (stepsOf target ++ rest) d met) :
    Enters s (links + 1) here (name :: rest) d ((here ++ [name]) :: met)

/-- The directory that is entered is reached. -/
theorem Enters.reached (h : Enters s links here steps d met) (hh : s.Reached here) : s.Reached d := by
  induction h with
  | done links here => exact hh
  | stay _ _ ih => exact ih hh
  | up _ ih => exact ih hh.dropLast
  | down _ hl _ ih => exact ih (State.reached_concat.mpr ⟨hh, hl⟩)
  | @link links here d name target rest met _ _ _ ih =>
    refine ih ?_
    split
    · exact s.reached_nil
    · exact hh

/-- What is met on the way are links. -/
theorem Enters.isSome_link? (h : Enters s links here steps d met) {q : Place} (hq : q ∈ met) :
    (s.link? q).isSome = true := by
  induction h with
  | done => cases hq
  | stay _ _ ih => exact ih hq
  | up _ ih => exact ih hq
  | down _ _ _ ih => exact ih hq
  | link _ hl _ ih =>
    rcases List.mem_cons.mp hq with rfl | hq
    · rw [hl]
      rfl
    · exact ih hq

/-- What is no `.`, no `..` and no empty name, and not too long, is an entry's name. -/
theorem isEntryName_of_not {name : String} (h₁ : ¬ (name = "" || name = ".") = true) (h₂ : ¬ name = "..")
    (h₃ : ¬ maxNameBytes < name.utf8ByteSize) : IsEntryName name := by
  simp only [Bool.or_eq_true, decide_eq_true_eq, not_or] at h₁
  exact ⟨h₁.1, h₁.2, h₂, Nat.le_of_not_lt h₃⟩

/-- A walk that ends in a directory enters it. -/
theorem enters_of_walk (hw : walk s making links here steps = .ok d) (hd : s.IsDirectoryAt d) :
    ∃ met, Enters s links here steps d met := by
  induction links, here, steps using walk_induction with
  | nil links here =>
    obtain rfl : here = d := Except.ok.inj (walk_nil.symm.trans hw)
    exact ⟨[], .done links here⟩
  | cons links here name rest ih ihl =>
    rw [walk_cons] at hw
    split at hw
    · rename_i h
      simp only [Bool.or_eq_true, decide_eq_true_eq] at h
      obtain ⟨met, hmet⟩ := ih here hw
      exact ⟨met, .stay h hmet⟩
    rename_i h₁
    split at hw
    · rename_i h
      subst h
      obtain ⟨met, hmet⟩ := ih here.dropLast hw
      exact ⟨met, .up hmet⟩
    rename_i h₂
    split at hw
    · cases hw
    split at hw
    · cases hw
    rename_i h₃
    have hn := isEntryName_of_not h₁ h₂ h₃
    obtain ⟨m, hm⟩ := hd
    cases hl : s.lookup (here ++ [name]) with
    | none =>
      rw [hl] at hw
      simp only at hw
      split at hw
      · -- the last name leads to nothing, which is no directory
        cases hw
        rw [hl] at hm
        cases hm
      · cases hw
    | some node =>
      rw [hl] at hw
      cases node with
      | directory m' =>
        obtain ⟨met, hmet⟩ := ih _ hw
        exact ⟨met, .down hn ⟨m', hl⟩ hmet⟩
      | file c m' =>
        simp only at hw
        split at hw
        · cases hw
          rw [hl] at hm
          cases hm
        · cases hw
      | link target =>
        cases links with
        | zero => cases hw
        | succ links =>
          obtain ⟨met, hmet⟩ := ihl links _ _ (Nat.lt_succ_self links) hw
          exact ⟨_, .link hn (State.link?_eq_some.mpr hl) hmet⟩

/-- Behind a directory that is entered, a walk goes on from there, with the links that are left. -/
theorem Enters.walk_append (h : Enters s links here steps d met) (hn : n ≠ "") (making : Bool) :
    ∃ left, walk s making links here (steps ++ [n]) = walk s making left d [n] := by
  -- what follows a name is no slash at the end of the path
  have hmaking : ∀ rest : List String, (making && decide (rest ++ [n] = [""])) = false := by
    intro rest
    have hne : rest ++ [n] ≠ [""] := by
      intro he
      exact hn (by simpa using congrArg List.getLast? he)
    simp [hne]
  induction h with
  | done links here => exact ⟨links, rfl⟩
  | @stay links here d name rest met h _ ih =>
    obtain ⟨left, ih⟩ := ih
    refine ⟨left, ?_⟩
    rw [List.cons_append, walk_cons, if_pos (by simpa using h), ih]
  | @up links here d rest met _ ih =>
    obtain ⟨left, ih⟩ := ih
    refine ⟨left, ?_⟩
    rw [List.cons_append, walk_cons, if_neg (by decide), if_pos rfl, ih]
  | @down links here d name rest met hname hl _ ih =>
    obtain ⟨left, ih⟩ := ih
    obtain ⟨m, hm⟩ := hl
    refine ⟨left, ?_⟩
    rw [List.cons_append, walk_entry_cons hname (hmaking rest), hm]
    exact ih
  | @link links here d name target rest met hname hl _ ih =>
    obtain ⟨left, ih⟩ := ih
    refine ⟨left, ?_⟩
    rw [List.cons_append, walk_entry_cons hname (hmaking rest), State.link?_eq_some.mp hl]
    simpa only [List.append_assoc] using ih

/-- The last step of a walk to an entry that is no link. -/
theorem walk_entry (hn : IsEntryName n) (hlink : s.link? (here ++ [n]) = none) :
    walk s making links here [n] = .ok (here ++ [n]) := by
  rw [walk_entry_cons hn (by simp)]
  cases hl : s.lookup (here ++ [n]) with
  | none => rfl
  | some node =>
    cases node with
    | directory m => exact walk_nil
    | file c m => rfl
    | link target =>
      rw [State.link?_eq_some.mpr hl] at hlink
      cases hlink

/-- A walk to an entry enters the directory of the entry, wherever links lead on the way. -/
theorem enters_of_walk_append (hw : walk s making links here (steps ++ [n]) = .ok w) :
    ∃ d met, Enters s links here steps d met := by
  induction links, here, steps using walk_induction with
  | nil links here => exact ⟨here, [], .done links here⟩
  | cons links here name rest ih ihl =>
    rw [List.cons_append, walk_cons] at hw
    split at hw
    · rename_i h
      simp only [Bool.or_eq_true, decide_eq_true_eq] at h
      obtain ⟨d, met, hd⟩ := ih here hw
      exact ⟨d, met, .stay h hd⟩
    rename_i h₁
    split at hw
    · rename_i h
      subst h
      obtain ⟨d, met, hd⟩ := ih here.dropLast hw
      exact ⟨d, met, .up hd⟩
    rename_i h₂
    split at hw
    · cases hw
    split at hw
    · cases hw
    rename_i h₃
    have hname := isEntryName_of_not h₁ h₂ h₃
    have hmore : rest ++ [n] ≠ [] := by simp
    cases hl : s.lookup (here ++ [name]) with
    | none =>
      rw [hl] at hw
      simp only [if_neg hmore] at hw
      cases hw
    | some node =>
      rw [hl] at hw
      cases node with
      | directory m =>
        obtain ⟨d, met, hd⟩ := ih _ hw
        exact ⟨d, met, .down hname ⟨m, hl⟩ hd⟩
      | file c m =>
        simp only [if_neg hmore] at hw
        cases hw
      | link target =>
        cases links with
        | zero => cases hw
        | succ links =>
          simp only [← List.append_assoc] at hw
          obtain ⟨d, met, hd⟩ := ihl links _ _ (Nat.lt_succ_self links) hw
          exact ⟨d, _, .link hname (State.link?_eq_some.mpr hl) hd⟩

/-- A walk along the way comes to its end. -/
theorem Enters.walk_eq (h : Enters s links here steps d met) : walk s false links here steps = .ok d := by
  induction h with
  | done links here => exact walk_nil
  | @stay links here d name rest met h _ ih => rw [walk_cons, if_pos (by simpa using h), ih]
  | @up links here d rest met _ ih => rw [walk_cons, if_neg (by decide), if_pos rfl, ih]
  | @down links here d name rest met hname hl _ ih =>
    obtain ⟨m, hm⟩ := hl
    rw [walk_entry_cons hname rfl, hm]
    exact ih
  | @link links here d name target rest met hname hl _ ih =>
    rw [walk_entry_cons hname rfl, State.link?_eq_some.mp hl]
    exact ih

/-- What a walk finds is found after more has come to be. -/
theorem walk_mono (hs : ∀ {q : Place} {node : Node}, s.lookup q = some node → s'.lookup q = some node)
    (hw : walk s making links here steps = .ok w) (hfound : s.lookup w ≠ none) :
    walk s' making links here steps = .ok w := by
  induction links, here, steps using walk_induction with
  | nil links here => rwa [walk_nil] at hw ⊢
  | cons links here name rest ih ihl =>
    rw [walk_cons] at hw ⊢
    split at hw
    · rename_i h
      rw [if_pos h]
      exact ih here hw
    rename_i h₁
    rw [if_neg h₁]
    split at hw
    · rename_i h
      rw [if_pos h]
      exact ih here.dropLast hw
    rename_i h₂
    rw [if_neg h₂]
    split at hw
    · cases hw
    rename_i h₃
    rw [if_neg h₃]
    split at hw
    · cases hw
    rename_i h₄
    rw [if_neg h₄]
    cases hl : s.lookup (here ++ [name]) with
    | none =>
      rw [hl] at hw
      simp only at hw
      split at hw
      · cases hw
        exact absurd hl hfound
      · cases hw
    | some node =>
      rw [hs hl]
      rw [hl] at hw
      cases node with
      | directory m => exact ih _ hw
      | file c m => exact hw
      | link target =>
        cases links with
        | zero => cases hw
        | succ links => exact ihl links _ _ (Nat.lt_succ_self links) hw

/-! ## The way that links decide -/

/-- Where steps lead from a directory, and the places of the links on the way, if there is a directory wherever there is
no link: up to the first link, behind which `follow` goes on. -/
def routeTo (link? : Place → Option String) (follow : Place → List String → Option (Place × List Place)) :
    Place → List String → Option (Place × List Place)
  | here, [] => some (here, [])
  | here, name :: rest =>
    if name = "" ∨ name = "." then routeTo link? follow here rest
    else if name = ".." then routeTo link? follow here.dropLast rest
    else
      match link? (here ++ [name]) with
      | none => routeTo link? follow (here ++ [name]) rest
      | some target =>
        (follow (if isAbsolute target then [] else here) (stepsOf target ++ rest)).map fun r =>
          (r.1, (here ++ [name]) :: r.2)

/-- Where steps lead from a directory over no more than so many links, and the places of these links, once the missing
directories on the way are made. -/
def route (link? : Place → Option String) : Nat → Place → List String → Option (Place × List Place)
  | 0 => routeTo link? fun _ _ => none
  | links + 1 => routeTo link? (route link? links)

theorem route_nil (link? : Place → Option String) : route link? links here [] = some (here, []) := by
  cases links <;> rfl

theorem route_cons (link? : Place → Option String) (name : String) (rest : List String) :
    route link? links here (name :: rest) =
      if name = "" ∨ name = "." then route link? links here rest
      else if name = ".." then route link? links here.dropLast rest
      else
        match link? (here ++ [name]) with
        | none => route link? links (here ++ [name]) rest
        | some target =>
          match links with
          | 0 => none
          | links + 1 =>
            (route link? links (if isAbsolute target then [] else here) (stepsOf target ++ rest)).map fun r =>
              (r.1, (here ++ [name]) :: r.2) := by
  cases links with
  | zero =>
    simp only [route, routeTo]
    cases link? (here ++ [name]) <;> rfl
  | succ links => rfl

/-- **The links alone decide where a way leads.** -/
theorem Enters.route_eq (h : Enters s links here steps d met) : route s.link? links here steps = some (d, met) := by
  induction h with
  | done links here => exact route_nil _
  | stay h _ ih => rw [route_cons, if_pos h, ih]
  | up _ ih => rw [route_cons, if_neg (by decide), if_pos rfl, ih]
  | down hn hl _ ih =>
    rw [route_cons, if_neg (not_or.mpr ⟨hn.ne_empty, hn.ne_dot⟩), if_neg hn.ne_dots, hl.link?]
    exact ih
  | link hn hl _ ih =>
    rw [route_cons, if_neg (not_or.mpr ⟨hn.ne_empty, hn.ne_dot⟩), if_neg hn.ne_dots, hl]
    simp [ih]

/-! ## States that keep the way -/

/-- Nothing changes in reached directories but at the places, where there is no directory before or after. -/
structure State.Frame (s s' : State) (changed : List Place) : Prop where
  workingDirectory : s'.workingDirectory = s.workingDirectory
  before : ∀ q ∈ changed, ¬ s.IsDirectoryAt q
  after : ∀ q ∈ changed, ¬ s'.IsDirectoryAt q
  lookup : ∀ {here : Place} {n : String}, s.Reached here → here ++ [n] ∉ changed →
    s'.lookup (here ++ [n]) = s.lookup (here ++ [n])

namespace State

variable {changed : List Place}

theorem Frame.reached (h : s.Frame s' changed) (hr : s.Reached here) : s'.Reached here := by
  induction here using List.reverseRecOn with
  | nil => exact s'.reached_nil
  | append_singleton here x ih =>
    obtain ⟨hhere, m, hm⟩ := reached_concat.mp hr
    have hnot : here ++ [x] ∉ changed := fun hmem => h.before _ hmem ⟨m, hm⟩
    exact reached_concat.mpr ⟨ih hhere, m, (h.lookup hhere hnot).trans hm⟩

theorem Frame.reached_of (h : s.Frame s' changed) (hr : s'.Reached here) : s.Reached here := by
  induction here using List.reverseRecOn with
  | nil => exact s.reached_nil
  | append_singleton here x ih =>
    obtain ⟨hhere, m, hm⟩ := reached_concat.mp hr
    have hnot : here ++ [x] ∉ changed := fun hmem => h.after _ hmem ⟨m, hm⟩
    exact reached_concat.mpr ⟨ih hhere, m, (h.lookup (ih hhere) hnot).symm.trans hm⟩

theorem Frame.symm (h : s.Frame s' changed) : s'.Frame s changed where
  workingDirectory := h.workingDirectory.symm
  before := h.after
  after := h.before
  lookup := fun hr hnot => (h.lookup (h.reached_of hr) hnot).symm

end State

/-- **The way to a directory stays**, as long as no link on it changes. -/
theorem Enters.frame {changed : List Place} (h : Enters s links here steps d met) (hf : s.Frame s' changed)
    (hh : s.Reached here) (hmet : ∀ q ∈ changed, q ∉ met) : Enters s' links here steps d met := by
  induction h with
  | done links here => exact .done links here
  | stay h _ ih => exact .stay h (ih hh hmet)
  | up _ ih => exact .up (ih hh.dropLast hmet)
  | @down links here d name rest met hn hl _ ih =>
    have hnext : s.Reached (here ++ [name]) := State.reached_concat.mpr ⟨hh, hl⟩
    exact .down hn (hf.reached hnext).isDirectoryAt (ih hnext hmet)
  | @link links here d name target rest met hn hl _ ih =>
    have hsame : s'.lookup (here ++ [name]) = s.lookup (here ++ [name]) :=
      hf.lookup hh fun hmem => hmet _ hmem List.mem_cons_self
    refine .link hn ((State.link?_congr hsame).trans hl) (ih ?_ fun q hq hmem => hmet q hq (List.mem_cons_of_mem _ hmem))
    split
    · exact s.reached_nil
    · exact hh

end AdminPolicy.Posix
