import AdminPolicy.Proofs.Posix.Files

/-!
# Changing files

What the calls of an installation do to a POSIX file system, place by place. Directories that are made and files that
are written leave all links as they are and the files at other places too, but for other names of what is written
(`State.Grows`). Renaming and removing change a place or two at which there is no directory (`State.Frame`).
-/

namespace AdminPolicy.Posix

variable {s s' s'' : State} {dir : HostPath} {d w : Place} {met : List Place} {n : String} {c : ByteArray} {m : Mode}

open State

theorem State.concat_ne_nil (d : Place) (n : String) : d ++ [n] ≠ [] := by simp

theorem State.concat_ne_of_ne {a b : String} (h : a ≠ b) (d d' : Place) : d ++ [a] ≠ d' ++ [b] := by
  intro heq
  have hlast := congrArg List.getLast? heq
  exact h (by simpa using hlast)

/-! ## Growing -/

/-- Directories are made and files written: all else stays as it is. Files stay that are neither at a place that is
written nor share an inode with one. -/
structure State.Grows (s s' : State) (written : List Place) : Prop where
  workingDirectory : s'.workingDirectory = s.workingDirectory
  directory : ∀ {q : Place}, s.IsDirectoryAt q → s'.IsDirectoryAt q
  link? : s'.link? = s.link?
  sameFile : ∀ {p q : Place}, p ≠ q → s'.SameFile p q → s.SameFile p q
  file : ∀ {q : Place} {c : ByteArray} {m : Mode}, (∀ w ∈ written, q ≠ w ∧ ¬ s.SameFile q w) →
    s.lookup q = some (.file c m) → s'.lookup q = some (.file c m)

/-- The way to a directory stays as more directories are made. -/
theorem Enters.grows {links : Nat} {here : Place} {steps : List String} {written : List Place}
    (h : Enters s links here steps d met) (hg : s.Grows s' written) : Enters s' links here steps d met := by
  induction h with
  | done links here => exact .done links here
  | stay h _ ih => exact .stay h ih
  | up _ ih => exact .up ih
  | down hn hl _ ih => exact .down hn (hg.directory hl) ih
  | link hn hl _ ih => exact .link hn (hg.link? ▸ hl) ih

namespace State

variable {written written' : List Place}

theorem Grows.refl (s : State) : s.Grows s [] := ⟨rfl, fun h => h, rfl, fun _ h => h, fun _ h => h⟩

theorem Grows.trans (h : s.Grows s' written) (h' : s'.Grows s'' written') : s.Grows s'' (written ++ written') where
  workingDirectory := h'.workingDirectory.trans h.workingDirectory
  directory := fun hq => h'.directory (h.directory hq)
  link? := h'.link?.trans h.link?
  sameFile := fun hpq hs => h.sameFile hpq (h'.sameFile hpq hs)
  file := by
    intro q c m hq hl
    refine h'.file (fun w hw => ?_) (h.file (fun w hw => hq w (List.mem_append_left _ hw)) hl)
    obtain ⟨hne, hnot⟩ := hq w (List.mem_append_right _ hw)
    exact ⟨hne, fun hs => hnot (h.sameFile hne hs)⟩

theorem Grows.reached_workingDirectory (h : s.Grows s' written) (hwd : s.Reached s.workingDirectory) :
    s'.Reached s'.workingDirectory := h.workingDirectory ▸ fun q hq => h.directory (hwd q hq)

theorem Grows.origin (h : s.Grows s' written) (path : String) : s'.origin path = s.origin path := by
  unfold State.origin
  rw [h.workingDirectory]

theorem Grows.opens (h : s.Grows s' written) (ho : s.Opens dir d met) : s'.Opens dir d met := by
  unfold Opens
  rw [h.origin]
  exact Enters.grows ho h

/-- Where a way leads was settled before. -/
theorem Grows.route_eq (h : s.Grows s' written) (dir : HostPath) : s'.route dir = s.route dir := by
  unfold State.route
  rw [h.origin, h.link?]

/-- Putting a directory where there is nothing. -/
theorem grows_put_directory (hw : s.lookup w = none) (m : Mode) : s.Grows (s.put w (.directory m)) [] := by
  have hne : w ≠ [] := by
    rintro rfl
    cases hw
  have hlookup : ∀ {q : Place} {node : Node}, s.lookup q = some node →
      (s.put w (.directory m)).lookup q = some node := by
    intro q node hq
    have hqw : q ≠ w := by
      rintro rfl
      rw [hw] at hq
      cases hq
    rw [lookup_put s hne, if_neg hqw, hq]
  have hinode : ∀ {q : Place} {k : Nat}, (s.put w (.directory m)).inode? q = some k → s.inode? q = some k := by
    intro q k hq
    rw [inode?_eq_some, binding?_put s hne] at hq
    split at hq
    · cases hq
    · exact inode?_eq_some.mpr hq
  refine ⟨rfl, fun ⟨m', hm'⟩ => ⟨m', hlookup hm'⟩, ?_, fun _ hs => ?_, fun _ hl => hlookup hl⟩
  · funext q
    by_cases hqw : q = w
    · have hdirectory : (s.put w (.directory m)).IsDirectoryAt q :=
        ⟨m, by rw [lookup_put s hne, if_pos hqw]; rfl⟩
      rw [hdirectory.link?, hqw, link?_of_none hw]
    · exact link?_congr (by rw [lookup_put s hne, if_neg hqw])
  · obtain ⟨k, hp, hq⟩ := sameFile_iff.mp hs
    exact sameFile_iff.mpr ⟨k, hinode hp, hinode hq⟩

/-- Storing a file where there is no directory and no link. -/
theorem grows_store (hw : w ≠ []) (hdirectory : ¬ s.IsDirectoryAt w) (hlink : s.link? w = none) (c : ByteArray)
    (m : Mode) : s.Grows (s.store w (.file c m)) [w] where
  workingDirectory := rfl
  directory := by
    rintro q ⟨m', hm'⟩
    refine ⟨m', ?_⟩
    rw [lookup_store s hw, if_neg, hm']
    rintro (rfl | hs)
    · exact hdirectory ⟨m', hm'⟩
    · exact hdirectory ⟨m', hs.lookup_eq ▸ hm'⟩
  link? := by
    funext q
    by_cases hq : q = w ∨ s.SameFile q w
    · have hsame : s.lookup q = s.lookup w := hq.elim (fun h => by rw [h]) SameFile.lookup_eq
      have hfile : (s.store w (.file c m)).lookup q = some (.file c m) := by
        rw [lookup_store s hw, if_pos hq]
        rfl
      rw [link?_of_file hfile, link?_congr hsame, hlink]
    · exact link?_congr (by rw [lookup_store s hw, if_neg hq])
  sameFile := sameFile_of_store hw
  file := by
    intro q c' m' hq hl
    obtain ⟨hne, hnot⟩ := hq w (List.mem_singleton_self w)
    rw [lookup_store s hw, if_neg (by simp [hne, hnot]), hl]

end State

theorem lookup_of_entry {slot : Slot} {fault : Fault} {w : Place} {node? : Option Node}
    (h : s.entry slot fault = .ok (w, node?)) : s.lookup w = node? := by
  unfold State.entry at h
  split at h
  · cases h
  · split at h
    · cases h
    · cases h
      rfl

theorem grows_makeDirectory {p : HostPath} (h : makeDirectory p m s = .ok s') : s.Grows s' [] := by
  unfold makeDirectory at h
  obtain ⟨slot, -, h⟩ := exists_ok_of_bind_eq_ok h
  obtain ⟨⟨here, node?⟩, hentry, h⟩ := exists_ok_of_bind_eq_ok h
  cases node? with
  | some node => cases h
  | none =>
    cases h
    exact grows_put_directory (lookup_of_entry hentry) _

theorem grows_makeDirectories (m : Mode) (ps : List HostPath) (s : State) :
    s.Grows (makeDirectories m ps s).2 [] := by
  induction ps generalizing s with
  | nil => exact .refl s
  | cons p ps ih =>
    have hsettle : ∀ (f : Fault) (t : State),
        (if t.isDirectory p = true then ((Except.ok () : Except Fault Unit), t) else (.error f, t)).2 = t := by
      intro f t
      split <;> rfl
    unfold makeDirectories
    split
    · exact .refl s
    split
    · rename_i s₁ h₁
      exact grows_makeDirectory h₁
    · -- the directories above are made first
      have hps := ih s
      rcases hr : makeDirectories m ps s with ⟨r, s₁⟩
      rw [hr] at hps
      cases r with
      | error f => exact hps
      | ok _ =>
        simp only
        split
        · rename_i s₂ h₂
          exact hps.trans (grows_makeDirectory h₂)
        · simpa only [hsettle] using hps
    · simp only [hsettle]
      exact .refl s

/-- **Writing** to the path of a name that is no link: the file has the contents. -/
theorem grows_writeFile (hn : IsFileName n)
    (hlink : ∀ d met, s.route dir = some (d, met) → s.link? (d ++ [n]) = none)
    (hw : writeFile (dir.join n) c m s = .ok s') : ∃ d met, s.Opens dir d met ∧ s.Grows s' [d ++ [n]] ∧
      s'.lookup (d ++ [n]) = some (.file c (m &&& 0o7777)) := by
  unfold writeFile writeWith at hw
  obtain ⟨w, hlocate, hw⟩ := exists_ok_of_bind_eq_ok hw
  obtain ⟨-, d, met, links, ho, hwalk⟩ := opens_of_locate hn hlocate
  have hnone := hlink d met ho.route_eq
  rw [walk_entry hn.isEntryName hnone] at hwalk
  obtain rfl := Except.ok.inj hwalk
  have hfree : ¬ s.IsDirectoryAt (d ++ [n]) := by
    rintro ⟨m', hm'⟩
    simp [hm'] at hw
  obtain rfl : s' = s.store (d ++ [n]) (.file c (m &&& 0o7777)) := by
    split at hw
    · exact (Except.ok.inj hw).symm
    · exact (Except.ok.inj hw).symm
    · cases hw
  refine ⟨d, met, ho, grows_store (concat_ne_nil d n) hfree hnone c (m &&& 0o7777), ?_⟩
  rw [lookup_store s (concat_ne_nil d n), if_pos (Or.inl rfl)]
  rfl

/-! ## Removing -/

/-- Where nothing changes, it changes at any places. -/
theorem State.frame_self {changed : List Place} (h : ∀ q ∈ changed, ¬ s.IsDirectoryAt q) : s.Frame s changed :=
  ⟨rfl, h, h, fun _ _ => rfl⟩

theorem State.frame_erase (hfree : ¬ s.IsDirectoryAt (d ++ [n])) : s.Frame (s.erase (d ++ [n])) [d ++ [n]] where
  workingDirectory := rfl
  before := by
    intro q hq
    rw [List.mem_singleton.mp hq]
    exact hfree
  after := by
    rintro q hq ⟨m, hm⟩
    rw [lookup_erase s (concat_ne_nil d n), if_pos (List.mem_singleton.mp hq)] at hm
    cases hm
  lookup := fun _ hnot => by rw [lookup_erase s (concat_ne_nil d n), if_neg (by simpa using hnot)]

/-- The outcome of a removal in a directory. -/
theorem removeFile_join (hn : IsFileName n) (hf : pathFault? (dir.join n) = none) (ho : s.Opens dir d met)
    (hr : s.Reached d) : removeFile (dir.join n) s =
      match s.lookup (d ++ [n]) with
      | none => .error .notFound
      | some (.directory _) => .error .isADirectory
      | some _ => .ok (s.erase (d ++ [n])) := by
  unfold removeFile
  rw [slot_of_opens hn hf ho hr]
  simp only [bind, Except.bind, entry_eq hn]
  cases s.lookup (d ++ [n]) with
  | none => rfl
  | some node => cases node <;> rfl

/-- At the path of a name nothing is read any more, whatever is left was there, and nothing has changed but where that
path leads. -/
structure State.Removes (s s' : State) (dir : HostPath) (n : String) : Prop where
  gone : ∀ c, readBytes (dir.join n) s' ≠ .ok c
  left : ∀ {q : Place} {node : Node}, s'.lookup q = some node → s.lookup q = some node
  frame : ∃ changed, s.Frame s' changed ∧ ∀ q ∈ changed, ∃ d met, s.Opens dir d met ∧ q = d ++ [n]

/-- **Removing** the path of a name. -/
theorem removes_removeFile (hwd : s.Reached s.workingDirectory) (hn : IsFileName n)
    (h : removeFile (dir.join n) s = .ok s') : s.Removes s' dir n := by
  obtain ⟨slot, hslot, -⟩ := exists_ok_of_bind_eq_ok (by simpa only [removeFile] using h)
  obtain ⟨hf, ⟨met, ho⟩, -⟩ := opens_of_slot hn hslot
  generalize slot.directory = d at ho
  rw [removeFile_join hn hf ho (ho.reached hwd)] at h
  have hfree : ¬ s.IsDirectoryAt (d ++ [n]) := by
    rintro ⟨m, hm⟩
    rw [hm] at h
    cases h
  obtain rfl : s' = s.erase (d ++ [n]) := by
    split at h
    · cases h
    · cases h
    · exact (Except.ok.inj h).symm
  have hframe := frame_erase hfree
  have hgone : (s.erase (d ++ [n])).lookup (d ++ [n]) = none := by
    rw [lookup_erase s (concat_ne_nil d n), if_pos rfl]
  refine ⟨fun c => not_readBytes_of_lookup hn fun d' met' ho' => ?_, fun {q node} hq => ?_, [d ++ [n]], hframe,
    fun q hq => ⟨d, met, ho, List.mem_singleton.mp hq⟩⟩
  · -- the path leads where it led
    have hlink : ∀ q ∈ [d ++ [n]], (s.erase (d ++ [n])).link? q = none := by
      intro q hq
      rw [List.mem_singleton.mp hq]
      exact link?_of_none hgone
    obtain ⟨rfl, -⟩ := ho.unique (ho'.of_frame hframe hwd hlink)
    exact hgone
  · rw [lookup_erase s (concat_ne_nil d n)] at hq
    split at hq
    · cases hq
    · exact hq

/-- A removal that finds nothing: nothing is read there. -/
theorem removes_of_notFound (hwd : s.Reached s.workingDirectory) (hn : IsFileName n)
    (h : removeFile (dir.join n) s = .error .notFound) : s.Removes s dir n := by
  refine ⟨fun c hread => ?_, fun hq => hq, [], frame_self nofun, nofun⟩
  obtain ⟨w, m, hw, -⟩ := exists_locate_of_readBytes hread
  obtain ⟨hf, -⟩ := opens_of_locate hn hw
  refine not_readBytes_of_lookup hn (fun d met ho => ?_) hread
  rw [removeFile_join hn hf ho (ho.reached hwd)] at h
  cases hl : s.lookup (d ++ [n]) with
  | none => rfl
  | some node =>
    rw [hl] at h
    cases node <;> cases h

/-! ## Renaming -/

/-- Where a name is after a place was moved, seen from a place that has nothing below the old or the new place. -/
theorem moved_iff {a b q p : Place} (hqa : a <+: q → q = a) (hqb : b <+: q → q = b) (hpb : p ≠ b) (node : Binding) :
    (match a.isPrefixOf? p with
      | some below => (b ++ below, node)
      | none => (p, node)).1 = q ↔ if q = b then p = a else q ≠ a ∧ p = q := by
  cases hbelow : a.isPrefixOf? p with
  | some below =>
    have hp : a ++ below = p := List.isPrefixOf?_eq_some_iff_append_eq.mp hbelow
    subst hp
    constructor
    · intro hq
      obtain rfl : q = b := hqb ⟨below, hq⟩
      rw [if_pos rfl]
      simpa using hq
    · split
      · rintro hpa
        simp_all
      · rintro ⟨hqa', hq⟩
        exact absurd (hqa ⟨below, hq⟩) hqa'
  | none =>
    have hnot : ¬ a <+: p := by
      rintro ⟨below, hp⟩
      rw [List.isPrefixOf?_eq_some_iff_append_eq.mpr hp] at hbelow
      cases hbelow
    constructor
    · rintro rfl
      rw [if_neg hpb]
      exact ⟨fun h => hnot (h ▸ List.prefix_refl _), rfl⟩
    · split
      · rintro rfl
        exact absurd (List.prefix_refl _) hnot
      · exact And.right

/-- What is where after a place was moved, if nothing is below it or below the new place. -/
theorem State.binding?_moveBelow (s : State) {a b q : Place} (hab : a ≠ b) (ha : a ≠ []) (hb : b ≠ [])
    (hqa : a <+: q → q = a) (hqb : b <+: q → q = b) :
    ((s.erase b).moveBelow a b).binding? q = if q = b then s.binding? a else if q = a then none else s.binding? q := by
  by_cases hq : q = []
  · subst hq
    rw [if_neg (Ne.symm hb), if_neg (Ne.symm ha)]
    rfl
  · -- the bindings that are at the place after the move are those that were where they come from
    have hfind : ((s.erase b).moveBelow a b).binding? q =
        (s.bindings.find? fun e => decide (e.1 ≠ b ∧ if q = b then e.1 = a else q ≠ a ∧ e.1 = q)).map Prod.snd := by
      rw [binding?_of_ne_nil _ hq]
      simp only [moveBelow, erase, List.find?_map, List.find?_filter, Option.map_map]
      congr 1
      · funext e
        simp only [Function.comp]
        split <;> rfl
      · congr 1
        funext e
        simp only [Function.comp, decide_eq_true_eq]
        exact decide_eq_decide.mpr (and_congr_right fun he => moved_iff hqa hqb he e.2)
    rw [hfind]
    by_cases hqb' : q = b
    · have hpred : ∀ e : Place × Binding, decide (e.1 ≠ b ∧ e.1 = a) = decide (e.1 = a) := by
        intro e
        exact decide_eq_decide.mpr ⟨And.right, fun h => ⟨h ▸ hab, h⟩⟩
      simp only [if_pos hqb', hpred, binding?_of_ne_nil s ha]
    · by_cases hqa' : q = a
      · have hpred : ∀ e : Place × Binding, decide (e.1 ≠ b ∧ q ≠ a ∧ e.1 = q) = false := by
          intro e
          exact decide_eq_false fun h => h.2.1 hqa'
        have hnone : (s.bindings.find? fun _ => false) = none := List.find?_eq_none.mpr fun _ _ => Bool.false_ne_true
        simp only [if_neg hqb', if_pos hqa', hpred, hnone, Option.map_none]
      · have hpred : ∀ e : Place × Binding, decide (e.1 ≠ b ∧ q ≠ a ∧ e.1 = q) = decide (e.1 = q) := by
          intro e
          exact decide_eq_decide.mpr ⟨fun h => h.2.2, fun h => ⟨h ▸ hqb', hqa', h⟩⟩
        simp only [if_neg hqb', if_neg hqa', hpred, binding?_of_ne_nil s hq]

theorem State.lookup_moveBelow (s : State) {a b q : Place} (hab : a ≠ b) (ha : a ≠ []) (hb : b ≠ [])
    (hqa : a <+: q → q = a) (hqb : b <+: q → q = b) :
    ((s.erase b).moveBelow a b).lookup q = if q = b then s.lookup a else if q = a then none else s.lookup q := by
  unfold lookup
  rw [binding?_moveBelow s hab ha hb hqa hqb]
  split
  · rfl
  · split <;> rfl

theorem not_isPrefixOf_concat {a b : String} (hab : a ≠ b) (d : Place) : (d ++ [a]).isPrefixOf (d ++ [b]) = false := by
  rw [Bool.eq_false_iff]
  intro h
  have heq := (List.isPrefixOf_iff_prefix.mp h).eq_of_length (by simp)
  exact concat_ne_of_ne hab d d heq

/-- The outcome of a renaming of a file in a directory. -/
theorem rename_join {a b : String} (ha : IsFileName a) (hb : IsFileName b) (hab : a ≠ b)
    (hfa : pathFault? (dir.join a) = none) (hfb : pathFault? (dir.join b) = none) (ho : s.Opens dir d met)
    (hr : s.Reached d) (hl : s.lookup (d ++ [a]) = some (.file c m)) :
    rename (dir.join a) (dir.join b) s =
      if s.SameFile (d ++ [a]) (d ++ [b]) then .ok s
      else
        match s.lookup (d ++ [b]) with
        | some (.directory _) => .error .isADirectory
        | _ => .ok ((s.erase (d ++ [b])).moveBelow (d ++ [a]) (d ++ [b])) := by
  have hne : d ++ [a] ≠ d ++ [b] := concat_ne_of_ne hab d d
  have hab' := not_isPrefixOf_concat hab d
  have hba' := not_isPrefixOf_concat hab.symm d
  unfold rename
  rw [slot_of_opens ha hfa ho hr, slot_of_opens hb hfb ho hr]
  simp only [bind, Except.bind, entry_eq ha, entry_eq hb, hl]
  by_cases hs : s.SameFile (d ++ [a]) (d ++ [b])
  · simp [hs, hab', hba', Node.isDirectory]
  · cases hlb : s.lookup (d ++ [b]) with
    | none => simp [hs, hne, hab', hba', Node.isDirectory]
    | some node => cases node <;> simp [hs, hne, hab', hba', Node.isDirectory]

/-- A file that is moved in its directory stands under the new name alone. -/
theorem State.frame_moveBelow {a b : String} (hab : a ≠ b) (hr : s.Reached d)
    (hl : s.lookup (d ++ [a]) = some (.file c m)) (hb : ¬ s.IsDirectoryAt (d ++ [b])) :
    let moved := (s.erase (d ++ [b])).moveBelow (d ++ [a]) (d ++ [b])
    s.Frame moved [d ++ [a], d ++ [b]] ∧ moved.lookup (d ++ [a]) = none ∧
      moved.lookup (d ++ [b]) = some (.file c m) := by
  intro moved
  have hne : d ++ [a] ≠ d ++ [b] := concat_ne_of_ne hab d d
  have ha := not_isDirectoryAt_of_file hl
  -- a file has nothing below it
  have hlookup : ∀ {here : Place} {n : String}, s.Reached here → moved.lookup (here ++ [n]) =
      if here ++ [n] = d ++ [b] then s.lookup (d ++ [a]) else if here ++ [n] = d ++ [a] then none
      else s.lookup (here ++ [n]) := fun hhere =>
    lookup_moveBelow s hne (concat_ne_nil d a) (concat_ne_nil d b) (hhere.eq_of_prefix ha) (hhere.eq_of_prefix hb)
  have hnone : moved.lookup (d ++ [a]) = none := by
    rw [hlookup hr, if_neg hne, if_pos rfl]
  have hfile : moved.lookup (d ++ [b]) = some (.file c m) := by
    rw [hlookup hr, if_pos rfl, hl]
  refine ⟨⟨rfl, fun q hq => ?_, fun q hq => ?_, fun {here n} hhere hnot => ?_⟩, hnone, hfile⟩
  · rcases List.mem_pair.mp hq with rfl | rfl
    · exact ha
    · exact hb
  · rcases List.mem_pair.mp hq with rfl | rfl
    · rintro ⟨m', hm'⟩
      rw [hnone] at hm'
      cases hm'
    · exact not_isDirectoryAt_of_file hfile
  · rw [List.mem_pair, not_or] at hnot
    rw [hlookup hhere, if_neg hnot.2, if_neg hnot.1]

/-- A file has moved from one name to another one in the directory that the path opens. -/
structure State.Renames (s s' : State) (dir : HostPath) (d : Place) (met : List Place) (a b : String) (c : ByteArray) :
    Prop where
  stored : s.Stored dir d met a c
  frame : s.Frame s' [d ++ [a], d ++ [b]]
  source : s'.link? (d ++ [a]) = none
  target : ∃ m, s'.lookup (d ++ [b]) = some (.file c m)

/-- **Renaming** a file in its directory: the file is there under the new name. -/
theorem renames_rename {a b : String} (hwd : s.Reached s.workingDirectory) (ha : IsFileName a) (hb : IsFileName b)
    (hab : a ≠ b) (hc : ∀ d met, s.Opens dir d met → s.Stored dir d met a c)
    (h : rename (dir.join a) (dir.join b) s = .ok s') :
    pathFault? (dir.join b) = none ∧ ∃ d met, s.Renames s' dir d met a b c := by
  obtain ⟨old, hold, hrest⟩ := exists_ok_of_bind_eq_ok (by simpa only [rename] using h)
  obtain ⟨new, hnew, -⟩ := exists_ok_of_bind_eq_ok hrest
  obtain ⟨hfa, ⟨met, ho⟩, -⟩ := opens_of_slot ha hold
  obtain ⟨hfb, -, -⟩ := opens_of_slot hb hnew
  generalize old.directory = d at ho
  have hstored := hc d met ho
  obtain ⟨m, hl⟩ := hstored.file
  have hr := ho.reached hwd
  rw [rename_join ha hb hab hfa hfb ho hr hl] at h
  refine ⟨hfb, d, met, ?_⟩
  split at h
  · -- both names stand for the file already
    rename_i hs
    obtain rfl := Except.ok.inj h
    have hlb : s.lookup (d ++ [b]) = some (.file c m) := hs.lookup_eq ▸ hl
    have hframe : s.Frame s [d ++ [a], d ++ [b]] := frame_self fun q hq => by
      rcases List.mem_pair.mp hq with rfl | rfl
      · exact not_isDirectoryAt_of_file hl
      · exact not_isDirectoryAt_of_file hlb
    exact ⟨hstored, hframe, link?_of_file hl, m, hlb⟩
  · have hdirectory : ¬ s.IsDirectoryAt (d ++ [b]) := by
      rintro ⟨m', hm'⟩
      rw [hm'] at h
      cases h
    obtain rfl : s' = (s.erase (d ++ [b])).moveBelow (d ++ [a]) (d ++ [b]) := by
      split at h
      · cases h
      · exact (Except.ok.inj h).symm
    obtain ⟨hframe, hnone, hfile⟩ := frame_moveBelow hab hr hl hdirectory
    exact ⟨hstored, hframe, link?_of_none hnone, m, hfile⟩

/-! ## Files that stay -/

namespace State

/-- What is no link is not on the way. -/
theorem Opens.not_mem (ho : s.Opens dir d met) {q : Place} (hq : s.link? q = none) : q ∉ met := by
  intro hmem
  have hsome := Enters.isSome_link? ho hmem
  rw [hq] at hsome
  cases hsome

theorem Stored.not_mem (h : s.Stored dir d met n c) {dir' : HostPath} {d' : Place} {met' : List Place}
    (ho : s.Opens dir' d' met') : d ++ [n] ∉ met' := by
  obtain ⟨m, hm⟩ := h.file
  exact ho.not_mem (link?_of_file hm)

theorem Stored.grows {written : List Place} (h : s.Stored dir d met n c) (hg : s.Grows s' written)
    (hnot : ∀ w ∈ written, d ++ [n] ≠ w ∧ ¬ s.SameFile (d ++ [n]) w) : s'.Stored dir d met n c := by
  obtain ⟨m, hm⟩ := h.file
  exact ⟨hg.opens h.opens, m, hg.file hnot hm⟩

theorem Stored.frame {changed : List Place} (h : s.Stored dir d met n c) (hwd : s.Reached s.workingDirectory)
    (hf : s.Frame s' changed) (hmet : ∀ q ∈ changed, q ∉ met) (hnot : d ++ [n] ∉ changed) :
    s'.Stored dir d met n c := by
  obtain ⟨m, hm⟩ := h.file
  exact ⟨h.opens.frame hf hwd hmet, m, (hf.lookup (h.opens.reached hwd) hnot).trans hm⟩

variable {a b : String}

theorem Renames.link? (h : s.Renames s' dir d met a b c) : ∀ q ∈ [d ++ [a], d ++ [b]], s'.link? q = none := by
  intro q hq
  rcases List.mem_pair.mp hq with rfl | rfl
  · exact h.source
  · obtain ⟨m, hm⟩ := h.target
    exact link?_of_file hm

/-- The renamed file is where its path leads, if the way there does not lead over the new name. -/
theorem Renames.stored_target (h : s.Renames s' dir d met a b c) (hwd : s.Reached s.workingDirectory)
    (hmet : d ++ [b] ∉ met) : s'.Stored dir d met b c := by
  refine ⟨h.stored.opens.frame h.frame hwd fun q hq => ?_, h.target⟩
  rcases List.mem_pair.mp hq with rfl | rfl
  · exact h.stored.not_mem h.stored.opens
  · exact hmet

/-- Another file stays, if the way there does not lead over the new name. -/
theorem Renames.stored_other (h : s.Renames s' dir d met a b c) (hwd : s.Reached s.workingDirectory)
    {dir' : HostPath} {d' : Place} {met' : List Place} {c' : ByteArray} (hc : s.Stored dir' d' met' n c')
    (ha : n ≠ a) (hb : n ≠ b) (hmet : d ++ [b] ∉ met') : s'.Stored dir' d' met' n c' := by
  refine hc.frame hwd h.frame (fun q hq => ?_) ?_
  · rcases List.mem_pair.mp hq with rfl | rfl
    · exact h.stored.not_mem hc.opens
    · exact hmet
  · rw [List.mem_pair, not_or]
    exact ⟨concat_ne_of_ne ha d' d, concat_ne_of_ne hb d' d⟩

/-- Wherever a path still leads, it led there before, and another file that was there has stayed. -/
theorem Renames.stored_of_opens (h : s.Renames s' dir d met a b c) (hwd : s.Reached s.workingDirectory)
    {dir' : HostPath} {d' d₁ : Place} {met' met₁ : List Place} {c' : ByteArray} (hc : s.Stored dir' d' met' n c')
    (ha : n ≠ a) (hb : n ≠ b) (ho : s'.Opens dir' d₁ met₁) : s'.Stored dir' d₁ met₁ n c' := by
  obtain ⟨rfl, rfl⟩ := hc.opens.unique (ho.of_frame h.frame hwd h.link?)
  obtain ⟨m, hm⟩ := hc.file
  have hnot : d' ++ [n] ∉ [d ++ [a], d ++ [b]] := by
    rw [List.mem_pair, not_or]
    exact ⟨concat_ne_of_ne ha d' d, concat_ne_of_ne hb d' d⟩
  exact ⟨ho, m, (h.frame.lookup (hc.opens.reached hwd) hnot).trans hm⟩

end State

end AdminPolicy.Posix
