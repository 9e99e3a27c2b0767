import AdminPolicy.Proofs.Posix.Walk
import Mathlib.Data.List.Basic

/-!
# Files in directories

A POSIX file system seen by names in directories. `State.Opens s dir d met` says that the path of `dir` leads to the
directory at `d`, over the links at `met`; `State.route` finds both before the directories are made. A file at a name in
an opened directory is what the path of that name reads (`readBytes_of_opens`), and where nothing is at the name nothing
is read (`not_readBytes_of_lookup`).
-/

namespace AdminPolicy.Posix

open HostPath Text

variable {s s' : State} {dir : HostPath} {d : Place} {met : List Place} {n : String} {c : ByteArray} {m : Mode}

/-- What succeeds in two steps has a first step that succeeds. -/
theorem exists_ok_of_bind_eq_ok {α β : Type} {x : Except Fault α} {f : α → Except Fault β} {r : β}
    (h : (x >>= f) = .ok r) : ∃ a, x = .ok a ∧ f a = .ok r := by
  cases x with
  | ok a => exact ⟨a, rfl, h⟩
  | error _ => cases h

/-! ## Paths of names in a directory -/

/-- A name of a file that is not too long. -/
structure IsFileName (n : String) : Prop where
  isName : IsName n
  size : n.utf8ByteSize ≤ maxNameBytes

theorem IsFileName.isEntryName (h : IsFileName n) : IsEntryName n where
  ne_empty := by
    rintro rfl
    exact absurd h.isName (by decide)
  ne_dot := by
    rintro rfl
    exact absurd h.isName (by decide)
  ne_dots := by
    rintro rfl
    exact absurd h.isName (by decide)
  size := h.size

/-- The text of a name seen from a directory. -/
theorem toList_join (dir : HostPath) (hn : IsName n) : dir.text = "" ∧ (dir.join n).text = n ∨
    ∃ a, (dir.join n).text.toList = a ++ '/' :: n.toList ∧
      (dir.text.toList = a ++ ['/'] ∨ dir.text.toList = a ∧ a ≠ []) := by
  unfold join
  rw [if_neg (by simp [not_isAbsolute_of_isName hn])]
  by_cases hempty : dir.text = ""
  · exact Or.inl ⟨hempty, by simp [isEmpty, hempty]⟩
  · refine Or.inr ?_
    have hne : dir.text.toList ≠ [] := by simpa using hempty
    by_cases hslash : dir.text.toList.getLast? = some '/'
    · obtain ⟨a, ha⟩ := List.getLast?_eq_some_iff.mp hslash
      exact ⟨a, by simp [ha], Or.inl ha⟩
    · exact ⟨dir.text.toList, by simp [isEmpty, hempty, hslash], Or.inr ⟨rfl, hne⟩⟩

theorem namesOf_join (dir : HostPath) (hn : IsFileName n) : namesOf (dir.join n).text = namesOf dir.text ++ [n] := by
  have hne : n ≠ "" := hn.isEntryName.ne_empty
  have hname : splitOn '/' n.toList = [n.toList] := splitOn_of_not_mem hn.isName.1
  rcases toList_join dir hn.isName with ⟨hdir, hjoin⟩ | ⟨a, hjoin, hdir⟩
  · rw [hjoin, hdir]
    simp [namesOf, segments, hname, hne, splitOn]
  · have hnames : namesOf dir.text = ((splitOn '/' a).map String.ofList).filter (· ≠ "") := by
      rcases hdir with hdir | ⟨hdir, -⟩
      · have hcut : splitOn '/' (a ++ ['/']) = splitOn '/' a ++ [[]] := splitOn_append '/' [] a
        simp [namesOf, segments, hdir, hcut]
      · simp [namesOf, segments, hdir]
    rw [hnames]
    simp [namesOf, segments, hjoin, splitOn_append, hname, hne]

theorem endsInSlash_join (dir : HostPath) (hn : IsFileName n) : endsInSlash (dir.join n).text = false := by
  have hlast : n.toList.getLast? ≠ some '/' := fun h => hn.isName.1 (List.mem_of_getLast? h)
  have hne : n.toList ≠ [] := by simpa using hn.isEntryName.ne_empty
  have hcons : ∀ a : List Char, (a ++ '/' :: n.toList).getLast? = n.toList.getLast? := by
    intro a
    rw [List.getLast?_append_cons, List.getLast?_cons_of_ne_nil hne]
  rcases toList_join dir hn.isName with ⟨-, hjoin⟩ | ⟨a, hjoin, -⟩
  · simpa [endsInSlash, hjoin] using hlast
  · simpa [endsInSlash, hjoin, hcons] using hlast

theorem stepsOf_join (dir : HostPath) (hn : IsFileName n) : stepsOf (dir.join n).text = namesOf dir.text ++ [n] := by
  unfold stepsOf
  rw [endsInSlash_join dir hn, namesOf_join dir hn]
  rfl

/-- A name in a directory is looked for from where the directory is. -/
theorem origin_join (s : State) (dir : HostPath) (hn : IsFileName n) :
    s.origin (dir.join n).text = s.origin dir.text := by
  have habsolute : Posix.isAbsolute (dir.join n).text = Posix.isAbsolute dir.text := by
    rcases toList_join dir hn.isName with ⟨hdir, hjoin⟩ | ⟨a, hjoin, hdir⟩
    · have hrelative : Posix.isAbsolute n = false := not_isAbsolute_of_isName hn.isName
      rw [hjoin, hdir, hrelative]
      rfl
    · rcases hdir with hdir | ⟨hdir, hne⟩
      · cases a <;> simp [Posix.isAbsolute, hjoin, hdir]
      · cases a with
        | nil => exact absurd rfl hne
        | cons => simp [Posix.isAbsolute, hjoin, hdir]
  unfold State.origin
  rw [habsolute]

/-! ## Opening a directory -/

namespace State

/-- The place that the path of a directory leads to once the missing directories are made, and the places of the
links on the way. -/
def route (s : State) (dir : HostPath) : Option (Place × List Place) :=
  Posix.route s.link? maxLinks (s.origin dir.text) (namesOf dir.text)

/-- The path of a directory leads to the place, over the links at these places. -/
def Opens (s : State) (dir : HostPath) (d : Place) (met : List Place) : Prop :=
  Enters s maxLinks (s.origin dir.text) (namesOf dir.text) d met

theorem Opens.route_eq (ho : s.Opens dir d met) : s.route dir = some (d, met) := Enters.route_eq ho

theorem Opens.unique (ho : s.Opens dir d met) {d' : Place} {met' : List Place} (ho' : s.Opens dir d' met') :
    d = d' ∧ met = met' :=
  Prod.mk.inj (Option.some.inj (ho.route_eq.symm.trans ho'.route_eq))

theorem reached_origin (h : s.Reached s.workingDirectory) (path : String) : s.Reached (s.origin path) := by
  unfold State.origin
  split
  · exact s.reached_nil
  · exact h

theorem Opens.reached (ho : s.Opens dir d met) (h : s.Reached s.workingDirectory) : s.Reached d :=
  Enters.reached ho (reached_origin h _)

theorem Frame.reached_workingDirectory {changed : List Place} (hf : s.Frame s' changed)
    (h : s.Reached s.workingDirectory) : s'.Reached s'.workingDirectory := hf.workingDirectory ▸ hf.reached h

theorem Opens.frame {changed : List Place} (ho : s.Opens dir d met) (hf : s.Frame s' changed)
    (h : s.Reached s.workingDirectory) (hmet : ∀ q ∈ changed, q ∉ met) : s'.Opens dir d met := by
  unfold Opens State.origin
  rw [hf.workingDirectory]
  exact Enters.frame ho hf (reached_origin h _) hmet

/-- What is no link now was not on the way before. -/
theorem Opens.of_frame {changed : List Place} (ho : s'.Opens dir d met) (hf : s.Frame s' changed)
    (h : s.Reached s.workingDirectory) (hlink : ∀ q ∈ changed, s'.link? q = none) : s.Opens dir d met :=
  ho.frame hf.symm (hf.reached_workingDirectory h) fun q hq hmem => by
    have hsome := Enters.isSome_link? ho hmem
    rw [hlink q hq] at hsome
    cases hsome

/-- The slot of a name in a directory. -/
theorem opens_of_slot (hn : IsFileName n) {slot : Slot} (h : s.slot (dir.join n) = .ok slot) :
    pathFault? (dir.join n) = none ∧ (∃ met, s.Opens dir slot.directory met) ∧
      slot = ⟨slot.directory, some n, false⟩ := by
  have hentry := hn.isEntryName
  unfold State.slot at h
  rw [namesOf_join dir hn, origin_join s dir hn, endsInSlash_join dir hn] at h
  cases hf : pathFault? (dir.join n) with
  | some f => rw [hf] at h; cases h
  | none =>
    rw [hf] at h
    simp only [List.dropLast_concat, List.getLast?_concat] at h
    obtain ⟨d, hw, h⟩ := exists_ok_of_bind_eq_ok h
    cases hl : s.lookup d with
    | none => simp [hl] at h
    | some node =>
      cases node with
      | directory m =>
        simp only [hl, Except.ok.injEq] at h
        subst h
        refine ⟨rfl, enters_of_walk hw ⟨m, hl⟩, ?_⟩
        simp [Option.filter, hentry.ne_dot, hentry.ne_dots]
      | file c m => simp [hl] at h
      | link target => simp [hl] at h

theorem slot_of_opens (hn : IsFileName n) (hf : pathFault? (dir.join n) = none) (ho : s.Opens dir d met)
    (hr : s.Reached d) : s.slot (dir.join n) = .ok ⟨d, some n, false⟩ := by
  have hentry := hn.isEntryName
  obtain ⟨m, hm⟩ := hr.isDirectoryAt
  unfold slot
  rw [hf, namesOf_join dir hn, origin_join s dir hn, endsInSlash_join dir hn]
  simp [bind, Except.bind, Enters.walk_eq ho, hm, Option.filter, hentry.ne_dot, hentry.ne_dots]

theorem entry_eq (hn : IsFileName n) (fault : Fault) :
    s.entry ⟨d, some n, false⟩ fault = .ok (d ++ [n], s.lookup (d ++ [n])) := by
  unfold entry
  simp [Nat.not_lt.mpr hn.size]

/-- A name is looked for in the directory that its path enters. -/
theorem opens_of_locate (hn : IsFileName n) {making : Bool} {w : Place} (hw : s.locate making (dir.join n) = .ok w) :
    pathFault? (dir.join n) = none ∧ ∃ d met links, s.Opens dir d met ∧ walk s making links d [n] = .ok w := by
  unfold locate at hw
  rw [stepsOf_join dir hn, origin_join s dir hn] at hw
  cases hf : pathFault? (dir.join n) with
  | some f => rw [hf] at hw; cases hw
  | none =>
    rw [hf] at hw
    obtain ⟨d, met, hd⟩ := enters_of_walk_append hw
    obtain ⟨links, hlinks⟩ := hd.walk_append hn.isEntryName.ne_empty making
    exact ⟨rfl, d, met, links, hd, hlinks.symm.trans hw⟩

theorem locate_of_opens (hn : IsFileName n) (hf : pathFault? (dir.join n) = none) (ho : s.Opens dir d met)
    (hlink : s.link? (d ++ [n]) = none) (making : Bool) : s.locate making (dir.join n) = .ok (d ++ [n]) := by
  obtain ⟨links, hlinks⟩ := Enters.walk_append ho hn.isEntryName.ne_empty making
  unfold locate
  rw [hf, stepsOf_join dir hn, origin_join s dir hn]
  exact hlinks.trans (walk_entry hn.isEntryName hlink)

end State

/-! ## Reading -/

open State

theorem exists_locate_of_readBytes {p : HostPath} (h : readBytes p s = .ok c) :
    ∃ w m, s.locate false p = .ok w ∧ s.lookup w = some (.file c m) := by
  unfold readBytes State.node at h
  obtain ⟨⟨w, node⟩, hnode, h⟩ := exists_ok_of_bind_eq_ok h
  obtain ⟨w', hw, hnode⟩ := exists_ok_of_bind_eq_ok hnode
  cases hl : s.lookup w' with
  | none =>
    rw [hl] at hnode
    cases hnode
  | some node' =>
    rw [hl] at hnode
    cases hnode
    cases node with
    | directory m => cases h
    | file c' m =>
      cases h
      exact ⟨w, m, hw, hl⟩
    | link target => cases h

theorem readBytes_of_locate {p : HostPath} {w : Place} (hw : s.locate false p = .ok w)
    (hl : s.lookup w = some (.file c m)) : readBytes p s = .ok c := by
  simp [readBytes, State.node, bind, Except.bind, hw, hl]

/-- **Reading** the path of a name in an opened directory. -/
theorem readBytes_of_opens (hn : IsFileName n) (hf : pathFault? (dir.join n) = none) (ho : s.Opens dir d met)
    (hl : s.lookup (d ++ [n]) = some (.file c m)) : readBytes (dir.join n) s = .ok c :=
  readBytes_of_locate (locate_of_opens hn hf ho (link?_of_file hl) false) hl

/-- Where nothing is at the name, nothing is read. -/
theorem not_readBytes_of_lookup (hn : IsFileName n)
    (h : ∀ d met, s.Opens dir d met → s.lookup (d ++ [n]) = none) : readBytes (dir.join n) s ≠ .ok c := by
  intro hread
  obtain ⟨w, m, hw, hl⟩ := exists_locate_of_readBytes hread
  obtain ⟨-, d, met, links, ho, hwalk⟩ := opens_of_locate hn hw
  have hnone := h d met ho
  rw [walk_entry hn.isEntryName (link?_of_none hnone)] at hwalk
  obtain rfl := Except.ok.inj hwalk
  rw [hnone] at hl
  cases hl

/-- The path of a directory leads to the place, over these links, and the file of the name there has the contents. -/
structure State.Stored (s : State) (dir : HostPath) (d : Place) (met : List Place) (n : String) (c : ByteArray) :
    Prop where
  opens : s.Opens dir d met
  file : ∃ m, s.lookup (d ++ [n]) = some (.file c m)

theorem State.Stored.readBytes (h : s.Stored dir d met n c) (hn : IsFileName n)
    (hf : pathFault? (dir.join n) = none) : readBytes (dir.join n) s = .ok c := by
  obtain ⟨m, hm⟩ := h.file
  exact readBytes_of_opens hn hf h.opens hm

/-- What is read is read after more has come to be. -/
theorem readBytes_mono {p : HostPath} (hwd : s'.workingDirectory = s.workingDirectory)
    (hs : ∀ {q : Place} {node : Node}, s.lookup q = some node → s'.lookup q = some node)
    (h : readBytes p s = .ok c) : readBytes p s' = .ok c := by
  obtain ⟨w, m, hw, hl⟩ := exists_locate_of_readBytes h
  refine readBytes_of_locate (w := w) ?_ (hs hl)
  unfold locate at hw ⊢
  cases hf : pathFault? p with
  | some f => rw [hf] at hw; cases hw
  | none =>
    rw [hf] at hw
    have horigin : s'.origin p.text = s.origin p.text := by
      unfold State.origin
      rw [hwd]
    simp only [horigin]
    exact walk_mono hs hw (by simp [hl])

end AdminPolicy.Posix
