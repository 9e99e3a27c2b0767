import AdminPolicy.HostPath

/-!
# Places in a directory

A name seen from a directory is the place whose components are those of the directory and the name
(`components_join`), whatever the spelling of the directory. So places with different names differ
(`name_eq_of_same_join`), and a path names a child of a directory exactly when it names the place of its own file name
there (`same_join_of_parent?`, `exists_parent?_of_same_join`).
-/

namespace AdminPolicy.HostPath

open Text

/-! ## Naming the same place -/

@[refl] theorem Same.refl (p : HostPath) : p.Same p := rfl

theorem Same.symm {p q : HostPath} (h : p.Same q) : q.Same p := Eq.symm h

theorem Same.trans {p q r : HostPath} (h : p.Same q) (h' : q.Same r) : p.Same r := Eq.trans h h'

/-- The empty path has no components. -/
theorem components_of_isEmpty {p : HostPath} (h : p.isEmpty = true) : p.components = [] := by
  obtain ⟨text⟩ := p
  simp only [isEmpty, decide_eq_true_eq] at h
  subst h
  decide

/-! ## File names -/

/-- A text that is one component of a path, and neither `.` nor `..`. -/
def IsName (n : String) : Prop := '/' ∉ n.toList ∧ component? n.toList = some (.name n)

instance (n : String) : Decidable (IsName n) := inferInstanceAs (Decidable (_ ∧ _))

theorem IsName.not_trivial {n : String} (h : IsName n) : isTrivial n.toList = false := by
  cases ht : isTrivial n.toList with
  | false => rfl
  | true =>
    have hc := h.2
    simp [component?, ht] at hc

/-- The names among the components of a path are names. -/
theorem isName_of_mem_components {p : HostPath} {n : String} (h : .name n ∈ p.components) : IsName n := by
  unfold components componentsOf at h
  rcases hab : anchored p.segments with ⟨a, body⟩
  rw [hab] at h
  rcases List.mem_append.mp h with h | h
  · cases a <;> simp [Anchor.components] at h
  · obtain ⟨s, hs, hc⟩ := List.mem_filterMap.mp h
    have hseg : s ∈ p.segments := by
      rcases eq_of_anchored hab with ⟨_, _, e⟩ | ⟨_, e⟩ | ⟨_, e, _⟩
      · rw [e]; exact List.mem_cons_of_mem _ hs
      · rw [e]; exact List.mem_cons_of_mem _ hs
      · rw [e]; exact hs
    have hn : n.toList = s := by
      unfold component? at hc
      split at hc
      · cases hc
      · split at hc
        · cases hc
        · simp only [Option.some.injEq, Component.name.injEq] at hc
          rw [← hc, String.toList_ofList]
    exact ⟨by rw [hn]; exact not_mem_segments hseg, by rw [hn]; exact hc⟩

theorem getLast?_of_fileName? {p : HostPath} {n : String} (h : p.fileName? = some n) :
    p.components.getLast? = some (.name n) := by
  unfold fileName? at h
  split at h
  · rename_i m hm
    rw [hm, Option.some.inj h]
  · cases h

theorem isName_of_fileName? {p : HostPath} {n : String} (h : p.fileName? = some n) : IsName n :=
  isName_of_mem_components (List.mem_of_getLast? (getLast?_of_fileName? h))

/-! ## Names seen from a directory -/

theorem splitOn_append (sep : Char) (b : List Char) : ∀ a : List Char,
    splitOn sep (a ++ sep :: b) = splitOn sep a ++ splitOn sep b
  | [] => by simp [splitOn]
  | c :: cs => by
    have ih := splitOn_append sep b cs
    by_cases hc : c = sep
    · simp [splitOn, hc, ih]
    · cases h : splitOn sep cs with
      | nil => exact absurd h (splitOn_ne_nil sep cs)
      | cons p ps => simp [splitOn, hc, ih, h]

/-- A last segment says nothing about the way a path begins. -/
theorem anchored_concat {ss : List (List Char)} (h : ss ≠ []) :
    ∃ a body, ∀ s, anchored (ss ++ [s]) = (a, body ++ [s]) := by
  obtain ⟨s₀, rest, rfl⟩ := List.exists_cons_of_ne_nil h
  by_cases h₁ : s₀ = []
  · refine ⟨.root, rest, fun s => ?_⟩
    subst h₁
    cases rest <;> rfl
  · by_cases h₂ : s₀ = ['.']
    · exact ⟨.current, rest, fun s => by subst h₂; rfl⟩
    · refine ⟨.none, s₀ :: rest, fun s => ?_⟩
      unfold anchored
      split
      · rename_i e; exact absurd (List.cons.inj e).1 h₁
      · rename_i e; exact absurd (List.cons.inj e).1 h₂
      · rfl

/-- A last segment that is a name adds itself, in comparison with a trailing slash. -/
theorem componentsOf_concat {ss : List (List Char)} (h : ss ≠ []) {n : String} (hn : IsName n) :
    componentsOf (ss ++ [n.toList]) = componentsOf (ss ++ [[]]) ++ [.name n] := by
  obtain ⟨a, body, hab⟩ := anchored_concat h
  have hnil : component? [] = none := by decide
  unfold componentsOf
  rw [hab, hab]
  simp [hn.2, hnil]

/-- A trailing slash adds no component, except to the empty path. -/
theorem componentsOf_concat_nil {ss : List (List Char)} (h : ss ≠ []) (h' : ss ≠ [[]]) :
    componentsOf (ss ++ [[]]) = componentsOf ss := by
  have hnil : component? [] = none := by decide
  obtain ⟨s₀, rest, rfl⟩ := List.exists_cons_of_ne_nil h
  by_cases h₁ : s₀ = []
  · subst h₁
    cases rest with
    | nil => exact absurd rfl h'
    | cons t rest =>
      show [Component.root] ++ (t :: rest ++ [[]]).filterMap component? = _
      rw [List.filterMap_append]
      simp [componentsOf, anchored, hnil, Anchor.components]
  · by_cases h₂ : s₀ = ['.']
    · subst h₂; simp [componentsOf, anchored, hnil]
    · have hnone : ∀ ts : List (List Char), anchored (s₀ :: ts) = (.none, s₀ :: ts) := by
        intro ts
        unfold anchored
        split
        · rename_i e; exact absurd (List.cons.inj e).1 h₁
        · rename_i e; exact absurd (List.cons.inj e).1 h₂
        · rfl
      simp only [componentsOf, List.cons_append, hnone]
      rw [← List.cons_append, List.filterMap_append]
      simp [hnil]

theorem not_isAbsolute_of_isName {n : String} (hn : IsName n) : isAbsolute ⟨n⟩ = false := by
  cases h : n.toList with
  | nil => simp [isAbsolute, h]
  | cons c cs =>
    have hc : c ≠ '/' := fun e => hn.1 (by simp [h, e])
    simp [isAbsolute, h, hc]

/-- A name alone says nothing about the way a path begins. -/
theorem anchored_singleton {n : String} (hn : IsName n) : anchored [n.toList] = (.none, [n.toList]) := by
  have ht := hn.not_trivial
  simp only [isTrivial, Bool.or_eq_false_iff, decide_eq_false_iff_not] at ht
  unfold anchored
  split
  · rename_i e; exact absurd (List.cons.inj e).2 (by simp)
  · rename_i e; exact absurd (List.cons.inj e).1 ht.2
  · rfl

/-- A name seen from a directory is one more segment. The segments before it are those of the directory, whether or not
that ends with a slash; there are none if it is empty. -/
theorem exists_segments_join (dir : HostPath) : ∃ ss, (∀ {n : String}, IsName n →
      (dir.join n).segments = ss ++ [n.toList]) ∧
    (ss = [] ∧ dir.components = [] ∨ ss ≠ [] ∧ componentsOf (ss ++ [[]]) = dir.components) := by
  have hjoin : ∀ {n : String}, IsName n → dir.join n =
      if dir.isEmpty || dir.text.toList.getLast? = some '/' then ⟨dir.text ++ n⟩ else ⟨dir.text ++ "/" ++ n⟩ := by
    intro n hn
    rw [join, if_neg (by simp [not_isAbsolute_of_isName hn])]
  have hsplit : ∀ {n : String}, IsName n → splitOn '/' n.toList = [n.toList] := fun hn => splitOn_of_not_mem hn.1
  by_cases hempty : dir.isEmpty = true
  · -- the name alone
    have htext : dir.text = "" := by simpa [isEmpty] using hempty
    refine ⟨[], fun hn => ?_, Or.inl ⟨rfl, components_of_isEmpty hempty⟩⟩
    rw [hjoin hn, if_pos (by simp [hempty]), segments, htext, String.empty_append, hsplit hn, List.nil_append]
  · by_cases hslash : dir.text.toList.getLast? = some '/'
    · -- the directory ends with a slash
      obtain ⟨front, hfront⟩ := List.getLast?_eq_some_iff.mp hslash
      refine ⟨splitOn '/' front, fun hn => ?_, Or.inr ⟨splitOn_ne_nil _ _, ?_⟩⟩
      · rw [hjoin hn, if_pos (by simp [hslash]), segments, String.toList_append, hfront, List.append_assoc,
          List.singleton_append, splitOn_append, hsplit hn]
      · rw [components, segments, hfront, splitOn_append]
        rfl
    · -- a slash parts the two
      have hss : dir.segments ≠ [[]] := fun e => by
        have htext := joinWith_splitOn '/' dir.text.toList
        rw [segments] at e
        rw [e] at htext
        exact hempty (by simpa [isEmpty, joinWith] using htext.symm)
      have hne : dir.segments ≠ [] := splitOn_ne_nil _ _
      refine ⟨dir.segments, fun {n} hn => ?_, Or.inr ⟨hne, componentsOf_concat_nil hne hss⟩⟩
      have htext : (dir.text ++ "/" ++ n).toList = dir.text.toList ++ '/' :: n.toList := by simp
      rw [hjoin hn, if_neg (by simp [hslash, hempty]), segments, htext, splitOn_append, hsplit hn, segments]

/-- **A name seen from a directory** has the components of the directory and the name. -/
theorem components_join (dir : HostPath) {n : String} (hn : IsName n) :
    (dir.join n).components = dir.components ++ [.name n] := by
  obtain ⟨ss, hjoin, ⟨rfl, hdir⟩ | ⟨hss, hdir⟩⟩ := exists_segments_join dir
  · rw [components, hjoin hn, List.nil_append, componentsOf, anchored_singleton hn, hdir]
    simp [Anchor.components, hn.2]
  · rw [components, hjoin hn, componentsOf_concat hss hn, hdir]

theorem name_eq_of_same_join {dir dir' : HostPath} {n n' : String} (hn : IsName n) (hn' : IsName n')
    (h : (dir.join n).Same (dir'.join n')) : n = n' := by
  unfold Same at h
  rw [components_join dir hn, components_join dir' hn'] at h
  have := congrArg List.getLast? h
  simpa using this

/-- Different names are different places, in whatever directories. -/
theorem not_same_join (dir dir' : HostPath) {n n' : String} (hn : IsName n) (hn' : IsName n') (h : n ≠ n') :
    ¬ (dir.join n).Same (dir'.join n') := fun hs => h (name_eq_of_same_join hn hn' hs)

theorem fileName?_join (dir : HostPath) {n : String} (hn : IsName n) : (dir.join n).fileName? = some n := by
  unfold fileName?
  rw [components_join dir hn]
  simp

/-! ## Children -/

/-- Nothing is above a path without components, or above a root. -/
theorem components_of_parent?_eq_none {p : HostPath} (h : p.parent? = none) :
    p.components = [] ∨ p.components = [.root] := by
  unfold parent? at h
  rcases hab : anchored p.segments with ⟨a, body⟩
  have hp : p.components = a.components ++ body.filterMap component? := by
    unfold components componentsOf; rw [hab]
  rw [hab] at h
  simp only at h
  cases hr : (dropTrailing body).reverse with
  | cons c before => rw [hr] at h; cases h
  | nil =>
    have he : body.filterMap component? = [] := by
      rw [← filterMap_dropTrailing, List.reverse_eq_nil_iff.mp hr]; rfl
    rw [hr] at h
    rw [hp, he, List.append_nil]
    cases a with
    | root => exact Or.inr rfl
    | current => cases h
    | none => exact Or.inl rfl

/-- A path whose last component is a name lies in the directory of the components before it. -/
theorem exists_parent?_of_same_join {p dir : HostPath} {n : String} (hn : IsName n) (h : p.Same (dir.join n)) :
    ∃ q, p.parent? = some q ∧ q.Same dir := by
  have hp : p.components = dir.components ++ [.name n] := Eq.trans h (components_join dir hn)
  cases hq : p.parent? with
  | none =>
    rcases components_of_parent?_eq_none hq with e | e
    · rw [e] at hp; simp at hp
    · rw [e] at hp
      have := congrArg List.getLast? hp
      simp at this
  | some q =>
    refine ⟨q, rfl, ?_⟩
    have := (components_parent? hq).2
    rw [hp, List.dropLast_concat] at this
    exact this

/-- A child of a directory is the place of its file name there. -/
theorem same_join_of_parent? {p q dir : HostPath} {n : String} (hq : p.parent? = some q) (hd : q.Same dir)
    (hn : p.fileName? = some n) : p.Same (dir.join n) := by
  have hlast := getLast?_of_fileName? hn
  obtain ⟨cs, hcs⟩ := List.getLast?_eq_some_iff.mp hlast
  have hdrop := (components_parent? hq).2
  rw [hcs, List.dropLast_concat] at hdrop
  unfold Same at *
  rw [components_join dir (isName_of_fileName? hn), hcs, ← hdrop, hd]

/-- All names seen from a directory lie in the same place, spelling included: in that directory. -/
theorem exists_parent?_join (dir : HostPath) :
    ∃ q, q.Same dir ∧ ∀ {n : String}, IsName n → (dir.join n).parent? = some q := by
  obtain ⟨ss, hjoin, hdir⟩ := exists_segments_join dir
  obtain ⟨a, body, hab⟩ : ∃ a body, ∀ {n : String}, IsName n →
      anchored (ss ++ [n.toList]) = (a, body ++ [n.toList]) := by
    rcases hdir with ⟨rfl, -⟩ | ⟨hss, -⟩
    · exact ⟨.none, [], fun hn => anchored_singleton hn⟩
    · obtain ⟨a, body, hab⟩ := anchored_concat hss
      exact ⟨a, body, fun _ => hab _⟩
  have hparent : ∀ {n : String}, IsName n → (dir.join n).parent? = some (spell a (dropTrailing body)) := by
    intro n hn
    have hdrop : (dropTrailing (body ++ [n.toList])).reverse = n.toList :: body.reverse := by
      rw [dropTrailing, List.reverse_reverse, List.reverse_append]
      exact List.dropWhile_cons_of_neg (by simp [hn.not_trivial])
    simp only [parent?, hjoin hn, hab hn, hdrop, List.reverse_reverse]
  refine ⟨_, ?_, hparent⟩
  have hname : IsName "a" := by decide
  have hq := components_parent? (hparent hname)
  rw [components_join dir hname, List.dropLast_concat] at hq
  exact hq.2

/-! ## The paths above -/

/-- Segments without components are trivial ones. -/
theorem dropTrailing_eq_nil {ss : List (List Char)} (h : ss.filterMap component? = []) : dropTrailing ss = [] := by
  rw [dropTrailing]
  cases hd : ss.reverse.dropWhile isTrivial with
  | nil => rfl
  | cons s rest =>
    have hs : isTrivial s = false := by
      have := List.head?_dropWhile_not isTrivial ss.reverse
      rw [hd] at this
      simpa using this
    have hmem : s ∈ ss.reverse := (List.dropWhile_suffix isTrivial).subset (by rw [hd]; exact List.mem_cons_self)
    obtain ⟨c, hc⟩ := exists_component? hs
    have hc : c ∈ ss.filterMap component? := List.mem_filterMap.mpr ⟨s, List.mem_reverse.mp hmem, hc⟩
    rw [h] at hc
    cases hc

/-- Only the empty path is without components. -/
theorem isEmpty_iff {p : HostPath} : p.isEmpty = true ↔ p.components = [] := by
  refine ⟨components_of_isEmpty, fun h => ?_⟩
  rcases hab : anchored p.segments with ⟨a, body⟩
  have hp : p.components = a.components ++ body.filterMap component? := by
    unfold components componentsOf; rw [hab]
  rw [h] at hp
  obtain ⟨ha, hb⟩ := List.append_eq_nil_iff.mp hp.symm
  rcases eq_of_anchored hab with ⟨rfl, _⟩ | ⟨rfl, _⟩ | ⟨rfl, hs, hbody⟩
  · cases ha
  · cases ha
  · have hsegments : p.segments = [[]] := by
      rw [hs]
      rcases hbody with hbody | hhead
      · exact hbody
      · cases body with
        | nil => exact absurd hs (splitOn_ne_nil _ _)
        | cons s ss =>
          obtain ⟨c, hc⟩ := exists_component? (hhead s rfl)
          simp [hc] at hb
    have htext := joinWith_splitOn '/' p.text.toList
    rw [show splitOn '/' p.text.toList = [[]] from hsegments] at htext
    simpa [isEmpty, joinWith] using htext.symm

/-- Nothing is above the root. -/
theorem components_ne_root_of_parent? {p q : HostPath} (h : p.parent? = some q) : p.components ≠ [.root] := by
  intro hr
  unfold parent? at h
  rcases hab : anchored p.segments with ⟨a, body⟩
  have hp : p.components = a.components ++ body.filterMap component? := by
    unfold components componentsOf; rw [hab]
  rw [hr] at hp
  rw [hab] at h
  have hroot : ∀ c ∈ body.filterMap component?, c ≠ .root := by
    intro c hc he
    obtain ⟨s, _, hs⟩ := List.mem_filterMap.mp hc
    unfold component? at hs
    split at hs
    · cases hs
    · split at hs <;> cases hs <;> cases he
  cases a with
  | root =>
    have hb : body.filterMap component? = [] := by simpa [Anchor.components] using hp.symm
    simp [dropTrailing_eq_nil hb] at h
  | current => simp [Anchor.components] at hp
  | none => exact hroot .root (by rw [show body.filterMap component? = [.root] from hp.symm]; simp) rfl

/-- Paths that name the same place lie in the same place. -/
theorem exists_parent?_of_same {p p' q : HostPath} (hs : p.Same p') (h : p.parent? = some q) :
    ∃ q', p'.parent? = some q' ∧ q.Same q' := by
  cases hq : p'.parent? with
  | none =>
    rcases components_of_parent?_eq_none hq with e | e
    · exact absurd (Eq.trans hs e) (components_parent? h).1
    · exact absurd (Eq.trans hs e) (components_ne_root_of_parent? h)
  | some q' =>
    refine ⟨q', rfl, ?_⟩
    unfold Same at *
    rw [(components_parent? h).2, (components_parent? hq).2, hs]

theorem ancestors_of_parent?_eq_none {p : HostPath} (h : p.parent? = none) : p.ancestors = [p] := by
  unfold ancestors
  split
  · rfl
  · rename_i q hq; rw [h] at hq; cases hq

theorem ancestors_of_parent? {p q : HostPath} (h : p.parent? = some q) : p.ancestors = p :: q.ancestors := by
  rw [ancestors]
  split
  · rename_i hq; rw [h] at hq; cases hq
  · rename_i q' hq; rw [h] at hq; cases hq; rfl

theorem self_mem_ancestors (p : HostPath) : p ∈ p.ancestors := by
  cases h : p.parent? with
  | none => rw [ancestors_of_parent?_eq_none h]; exact List.mem_cons_self
  | some q => rw [ancestors_of_parent? h]; exact List.mem_cons_self

/-- What is above an ancestor is an ancestor. -/
theorem parent?_mem_ancestors {p a q : HostPath} (ha : a ∈ p.ancestors) (h : a.parent? = some q) : q ∈ p.ancestors := by
  induction p using ancestors.induct with
  | case1 p hp =>
    rw [ancestors_of_parent?_eq_none hp, List.mem_singleton] at ha
    rw [ha, hp] at h
    cases h
  | case2 p q' hp ih =>
    rw [ancestors_of_parent? hp] at ha ⊢
    rcases List.mem_cons.mp ha with rfl | ha
    · rw [hp] at h
      cases h
      exact List.mem_cons_of_mem _ (self_mem_ancestors q)
    · exact List.mem_cons_of_mem _ (ih ha)

end AdminPolicy.HostPath
