import AdminPolicy.Text.Split

/-!
# Host paths

A path is a text that keeps its spelling. Its meaning is its list of components: repeated and trailing slashes and
inner `.` segments do not count, a leading `.` does, and `..` stays. Two paths name the same place when their
components agree (`HostPath.Same`), and paths are ordered by their components.

`parent?` drops the last component, whatever the spelling (`components_parent?`), so `ancestors` ends.
-/

namespace AdminPolicy

open Text

/-- A path of the host, as it is spelt. -/
structure HostPath where
  text : String
  deriving DecidableEq, Repr, Inhabited

namespace HostPath

/-- One step of a path. -/
inductive Component where
  /-- The leading slash of an absolute path. -/
  | root
  /-- A leading `.`. -/
  | current
  /-- `..`. -/
  | parent
  | name (text : String)
  deriving DecidableEq, Repr

/-- The place of a kind of component in the order of components. -/
def Component.rank : Component → Nat
  | .root => 0
  | .current => 1
  | .parent => 2
  | .name _ => 3

/-- Components are ordered by kind, names among themselves by their characters. -/
def Component.order : Component → Component → Ordering
  | .name a, .name b => compare a b
  | a, b => compare a.rank b.rank

/-- The segments between slashes, empty ones included. -/
def segments (p : HostPath) : List (List Char) := splitOn '/' p.text.toList

/-- A segment that is no component. -/
def isTrivial (segment : List Char) : Bool := segment = [] || segment = ['.']

/-- The component that an inner segment stands for. -/
def component? (segment : List Char) : Option Component :=
  if isTrivial segment then none
  else if segment = ['.', '.'] then some .parent
  else some (.name (String.ofList segment))

/-- The way a path begins. -/
inductive Anchor where
  /-- With a slash. -/
  | root
  /-- With a `.` segment. -/
  | current
  /-- With its first component. -/
  | none
  deriving DecidableEq, Repr

/-- The component that an anchor is. -/
def Anchor.components : Anchor → List Component
  | .root => [.root]
  | .current => [.current]
  | .none => []

/-- The anchor of a segment list and the segments behind it. -/
def anchored : List (List Char) → Anchor × List (List Char)
  | [] :: s :: ss => (.root, s :: ss)
  | ['.'] :: ss => (.current, ss)
  | ss => (.none, ss)

def componentsOf (segments : List (List Char)) : List Component :=
  let (anchor, body) := anchored segments
  anchor.components ++ body.filterMap component?

def components (p : HostPath) : List Component := componentsOf p.segments

/-- Two paths name the same place. -/
def Same (p q : HostPath) : Prop := p.components = q.components

instance (p q : HostPath) : Decidable (p.Same q) := inferInstanceAs (Decidable (_ = _))

/-- The order of component lists: the first difference decides, and a beginning comes before the whole. -/
def orderOf : List Component → List Component → Ordering
  | [], [] => .eq
  | [], _ :: _ => .lt
  | _ :: _, [] => .gt
  | a :: as, b :: bs => (a.order b).then (orderOf as bs)

def order (p q : HostPath) : Ordering := orderOf p.components q.components

def isEmpty (p : HostPath) : Bool := p.text = ""

/-- The segment list without its trailing trivial segments. -/
def dropTrailing (segments : List (List Char)) : List (List Char) :=
  (segments.reverse.dropWhile isTrivial).reverse

/-- The spelling of an anchor followed by segments. -/
def spell : Anchor → List (List Char) → HostPath
  | .root, [] => ⟨"/"⟩
  | .root, ss => ⟨String.ofList (joinWith ['/'] ([] :: ss))⟩
  | .current, ss => ⟨String.ofList (joinWith ['/'] (['.'] :: ss))⟩
  | .none, ss => ⟨String.ofList (joinWith ['/'] ss)⟩

/-- The path without its last component; a root, and a path without components, has none. -/
def parent? (p : HostPath) : Option HostPath :=
  let (anchor, body) := anchored p.segments
  match (dropTrailing body).reverse, anchor with
  | [], .current => some ⟨""⟩
  | [], _ => none
  | _ :: before, anchor => some (spell anchor (dropTrailing before.reverse))

/-- The last component, if it is a name. -/
def fileName? (p : HostPath) : Option String :=
  match p.components.getLast? with
  | some (.name n) => some n
  | _ => none

def isAbsolute (p : HostPath) : Bool := p.text.toList.head? = some '/'

/-- The path of `name` seen from `dir`: an absolute name stands for itself, and one slash parts the two. -/
def join (dir : HostPath) (name : String) : HostPath :=
  if isAbsolute ⟨name⟩ then ⟨name⟩
  else if dir.isEmpty || dir.text.toList.getLast? = some '/' then ⟨dir.text ++ name⟩
  else ⟨dir.text ++ "/" ++ name⟩

/-! ## Components of a parent -/

/-- A text without components ahead holds the components behind it. -/
theorem filterMap_dropWhile (ss : List (List Char)) :
    (ss.dropWhile isTrivial).filterMap component? = ss.filterMap component? := by
  induction ss with
  | nil => rfl
  | cons s ss ih =>
    by_cases h : isTrivial s = true
    · simp [h, ih, component?]
    · simp [h]

/-- Trailing trivial segments hold no component. -/
theorem filterMap_dropTrailing (ss : List (List Char)) :
    (dropTrailing ss).filterMap component? = ss.filterMap component? := by
  rw [dropTrailing, List.filterMap_reverse, filterMap_dropWhile, List.filterMap_reverse, List.reverse_reverse]

theorem dropTrailing_isPrefix (ss : List (List Char)) : dropTrailing ss <+: ss := by
  rw [dropTrailing, ← List.reverse_suffix, List.reverse_reverse]
  exact List.dropWhile_suffix _

theorem exists_component? {s : List Char} (h : isTrivial s = false) : ∃ c, component? s = some c := by
  unfold component?
  simp only [h, Bool.false_eq_true, ↓reduceIte]
  split <;> exact ⟨_, rfl⟩

theorem not_mem_segments {p : HostPath} {s : List Char} (h : s ∈ p.segments) : '/' ∉ s :=
  not_mem_of_mem_splitOn h

/-- The anchor is given back by the segments behind it. -/
theorem eq_of_anchored {ss body : List (List Char)} {a : Anchor} (h : anchored ss = (a, body)) :
    (a = .root ∧ body ≠ [] ∧ ss = [] :: body) ∨ (a = .current ∧ ss = ['.'] :: body) ∨
      (a = .none ∧ ss = body ∧ (body = [[]] ∨ ∀ s ∈ body.head?, isTrivial s = false)) := by
  unfold anchored at h
  split at h <;> simp only [Prod.mk.injEq] at h <;> obtain ⟨rfl, rfl⟩ := h
  · exact Or.inl ⟨rfl, by simp, rfl⟩
  · exact Or.inr (Or.inl ⟨rfl, rfl⟩)
  · rename_i h1 h2
    refine Or.inr (Or.inr ⟨rfl, rfl, ?_⟩)
    rcases ss with _ | ⟨s, _ | ⟨t, ss⟩⟩
    · simp
    · by_cases hs : s = []
      · simp [hs]
      · refine Or.inr fun x hx => ?_
        simp only [List.head?_cons, Option.mem_def, Option.some.injEq] at hx
        subst hx
        simp only [isTrivial, hs, decide_false, Bool.false_or, decide_eq_false_iff_not]
        exact fun e => h2 [] (by rw [e])
    · refine Or.inr fun x hx => ?_
      simp only [List.head?_cons, Option.mem_def, Option.some.injEq] at hx
      subst hx
      simp only [isTrivial, Bool.or_eq_false_iff, decide_eq_false_iff_not]
      exact ⟨fun e => h1 t ss (by rw [e]), fun e => h2 (t :: ss) (by rw [e])⟩

/-- The components of a path spelt from an anchor and segments. -/
theorem components_spell {a : Anchor} {ss : List (List Char)} (hs : ∀ s ∈ ss, '/' ∉ s)
    (hn : a = .none → ∀ s ∈ ss.head?, isTrivial s = false) :
    (spell a ss).components = a.components ++ ss.filterMap component? := by
  unfold components segments
  cases a with
  | root =>
    cases ss with
    | nil => decide
    | cons s ss =>
      have h : ∀ p ∈ ([] :: s :: ss), '/' ∉ p := by
        intro p hp
        rcases List.mem_cons.mp hp with rfl | hp
        · simp
        · exact hs p hp
      simp only [spell, String.toList_ofList]
      rw [splitOn_joinWith (by simp) h]
      rfl
  | current =>
    have h : ∀ p ∈ (['.'] :: ss), '/' ∉ p := by
      intro p hp
      rcases List.mem_cons.mp hp with rfl | hp
      · decide
      · exact hs p hp
    simp only [spell, String.toList_ofList]
    rw [splitOn_joinWith (by simp) h]
    rfl
  | none =>
    cases ss with
    | nil => decide
    | cons s ss =>
      have ht := hn rfl s (by simp)
      simp only [isTrivial, Bool.or_eq_false_iff, decide_eq_false_iff_not] at ht
      simp only [spell, String.toList_ofList]
      rw [splitOn_joinWith (by simp) hs]
      unfold componentsOf anchored
      split
      · rename_i h
        split at h
        · rename_i e; exact absurd (List.cons.inj e).1 ht.1
        · rename_i e; exact absurd (List.cons.inj e).1 ht.2
        · simp only [Prod.mk.injEq] at h
          obtain ⟨rfl, rfl⟩ := h
          rfl

/-- The parent has the components of the path less the last, and there is a last. -/
theorem components_parent? {p q : HostPath} (h : p.parent? = some q) :
    p.components ≠ [] ∧ q.components = p.components.dropLast := by
  have hseg : ∀ s ∈ p.segments, '/' ∉ s := fun s hs => not_mem_segments hs
  unfold parent? at h
  rcases hab : anchored p.segments with ⟨a, body⟩
  have hp : p.components = a.components ++ body.filterMap component? := by
    unfold components componentsOf; rw [hab]
  rw [hab] at h
  simp only at h
  have hd : (dropTrailing body).reverse = body.reverse.dropWhile isTrivial := by
    rw [dropTrailing, List.reverse_reverse]
  cases hr : (dropTrailing body).reverse with
  | nil =>
    rw [hr] at h
    have he : body.filterMap component? = [] := by
      rw [← filterMap_dropTrailing, List.reverse_eq_nil_iff.mp hr]; rfl
    cases a <;> simp only [reduceCtorEq, Option.some.injEq] at h
    subst h
    rw [hp, he]
    exact ⟨by simp [Anchor.components], by decide⟩
  | cons c before =>
    rw [hr] at h
    simp only [Option.some.injEq] at h
    have hb : dropTrailing body = before.reverse ++ [c] := by
      rw [← List.reverse_reverse (dropTrailing body), hr, List.reverse_cons]
    have hc : isTrivial c = false := by
      have := List.head?_dropWhile_not isTrivial body.reverse
      rw [← hd, hr] at this
      simpa using this
    obtain ⟨x, hx⟩ := exists_component? hc
    have hpre : dropTrailing before.reverse <+: body :=
      ((dropTrailing_isPrefix _).trans (hb ▸ List.prefix_append _ _)).trans (dropTrailing_isPrefix body)
    have hmem : ∀ s ∈ body, '/' ∉ s := by
      intro s hs
      rcases eq_of_anchored hab with ⟨_, _, e⟩ | ⟨_, e⟩ | ⟨_, e, _⟩
      · exact hseg s (by rw [e]; exact List.mem_cons_of_mem _ hs)
      · exact hseg s (by rw [e]; exact List.mem_cons_of_mem _ hs)
      · exact hseg s (by rw [e]; exact hs)
    have hq : q.components = a.components ++ (dropTrailing before.reverse).filterMap component? := by
      rw [← h]
      refine components_spell (fun s hs => hmem s (hpre.mem hs)) fun ha s hs => ?_
      rcases eq_of_anchored hab with ⟨e, _⟩ | ⟨e, _⟩ | ⟨_, _, hbody⟩
      · rw [e] at ha; cases ha
      · rw [e] at ha; cases ha
      · obtain ⟨tail, ht⟩ := hpre
        cases hl : dropTrailing before.reverse with
        | nil => rw [hl] at hs; cases hs
        | cons y ys =>
          rw [hl, List.head?_cons, Option.mem_def, Option.some.injEq] at hs
          rw [hl] at ht
          subst hs
          rcases hbody with e | hhead
          · rw [e] at hb
            exact absurd hb (by cases before.reverse <;> simp [dropTrailing, isTrivial])
          · exact hhead y (by rw [← ht]; rfl)
    have hf : body.filterMap component? = before.reverse.filterMap component? ++ [x] := by
      rw [← filterMap_dropTrailing, hb, List.filterMap_append]
      simp [hx]
    rw [hp, hf, hq, filterMap_dropTrailing, ← List.append_assoc]
    exact ⟨by simp, by rw [List.dropLast_concat]⟩

/-- The path and the paths above it, nearest first. -/
def ancestors (p : HostPath) : List HostPath :=
  match _h : p.parent? with
  | none => [p]
  | some q => p :: q.ancestors
termination_by p.components.length
decreasing_by
  have := components_parent? _h
  have := List.length_pos_iff.mpr this.1
  grind [List.length_dropLast]

end HostPath

end AdminPolicy
