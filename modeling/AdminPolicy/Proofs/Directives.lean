import AdminPolicy.Host.Memory
import AdminPolicy.Proofs.Layout
import Mathlib.Data.List.Forall2
import Mathlib.Logic.Relation

/-!
# Directives of a document

A document is accepted exactly when each of its `entry` nodes is valid, and it is then read as one entry for each of
them, in order; otherwise the first that is not valid is reported, by the first of its key, its flag and its value that
is at fault (`PolicyDocument.entries_eq_ok_iff`, `PolicyDocument.entries_eq_error_iff`).

What does not count is said by edits (`PolicyDocument.Edit`): putting in something that is not looked at, or writing
another annotation. A document and any that edits lead to, in either direction, are read alike
(`PolicyDocument.entries_plain_of_eqvGen`).
-/

namespace AdminPolicy

/-! ## Edits of annotated documents -/

namespace Kdl.Annotated

/-- An edit of what stands behind a name, where the properties that count are those under the names `kept`. -/
inductive ItemsEdit (kept : List String) : List Item → List Item → Prop
  /-- A property that does not count. -/
  | property {name : String} (h : name ∉ kept) (v : Value) (before after : List Item) :
    ItemsEdit kept (before ++ after) (before ++ .property name v :: after)
  /-- A property that is written again further on. -/
  | overridden {name : String} {after : List Item} (h : ∃ w, .property name w ∈ after) (v : Value)
    (before : List Item) : ItemsEdit kept (before ++ after) (before ++ .property name v :: after)
  /-- An argument that is not the first. -/
  | argument {before : List Item} (h : ∃ w, .argument w ∈ before) (v : Value) (after : List Item) :
    ItemsEdit kept (before ++ after) (before ++ .argument v :: after)
  /-- Another annotation. -/
  | annotation {i j : Item} (h : i.plain = j.plain) (before after : List Item) :
    ItemsEdit kept (before ++ i :: after) (before ++ j :: after)

/-- An edit of a node: of its annotation, of what stands behind its name, or an edit `Below` of its children. -/
inductive NodeEdit (kept : List String) (Below : Document → Document → Prop) : Node → Node → Prop
  | annotation (tag? tag'? : Option String) (name : String) (is : List Item) (cs : Document) :
    NodeEdit kept Below (.mk tag? name is cs) (.mk tag'? name is cs)
  | items {is js : List Item} (h : ItemsEdit kept is js) (tag? : Option String) (name : String) (cs : Document) :
    NodeEdit kept Below (.mk tag? name is cs) (.mk tag? name js cs)
  | children {cs ds : Document} (h : Below cs ds) (tag? : Option String) (name : String) (is : List Item) :
    NodeEdit kept Below (.mk tag? name is cs) (.mk tag? name is ds)

/-- An edit of a list of nodes, where those count that are called `name`: one more of the others, or an edit `Within` of
a node. -/
inductive NodesEdit (name : String) (Within : Node → Node → Prop) : Document → Document → Prop
  | other {n : Node} (h : n.name ≠ name) (before after : Document) :
    NodesEdit name Within (before ++ after) (before ++ n :: after)
  | within {n m : Node} (h : Within n m) (before after : Document) :
    NodesEdit name Within (before ++ n :: after) (before ++ m :: after)

variable {kept : List String} {Below : Document → Document → Prop} {Within : Node → Node → Prop} {n m : Node}

/-- The first argument stays. -/
theorem ItemsEdit.findSome?_argument? {is js : List Item} (h : ItemsEdit kept is js) :
    (is.map Item.plain).findSome? Kdl.Item.argument? = (js.map Item.plain).findSome? Kdl.Item.argument? := by
  cases h with
  | property _ v before after | overridden _ v before =>
    simp [Item.plain, List.findSome?_cons, Kdl.Item.argument?]
  | argument h v after =>
    rename_i before
    obtain ⟨w, hw⟩ := h
    have hsome : ((before.map Item.plain).findSome? Kdl.Item.argument?).isSome := by
      rw [List.findSome?_isSome_iff]
      exact ⟨_, List.mem_map.mpr ⟨_, hw, rfl⟩, rfl⟩
    simp only [List.map_append, List.findSome?_append, Option.or_of_isSome hsome]
  | annotation h before after => simp [h]

/-- The properties that count stay. -/
theorem ItemsEdit.findSome?_property? {is js : List Item} (h : ItemsEdit kept is js) {name : String}
    (hname : name ∈ kept) : (is.map Item.plain).reverse.findSome? (Kdl.Item.property? name) =
      (js.map Item.plain).reverse.findSome? (Kdl.Item.property? name) := by
  cases h with
  | property h v before after =>
    rename_i other
    have hne : other ≠ name := fun he => h (he ▸ hname)
    simp [Item.plain, Kdl.Item.property?, hne, List.findSome?_append]
  | overridden h v before =>
    rename_i other after
    obtain ⟨w, hw⟩ := h
    by_cases he : other = name
    · -- the search begins at the end, so it meets the one that is written again first
      have hsome : ((after.map Item.plain).reverse.findSome? (Kdl.Item.property? name)).isSome := by
        rw [List.findSome?_isSome_iff]
        exact ⟨_, List.mem_reverse.mpr (List.mem_map.mpr ⟨_, hw, rfl⟩), by simp [Item.plain, Kdl.Item.property?, he]⟩
      simp only [List.map_append, List.map_cons, List.reverse_append, List.reverse_cons, List.findSome?_append,
        Option.or_of_isSome hsome]
    · simp [Item.plain, Kdl.Item.property?, he, List.findSome?_append]
  | argument h v after => simp [Item.plain, List.findSome?_cons, Kdl.Item.property?, List.findSome?_append]
  | annotation h before after => simp [h]

theorem NodeEdit.name_eq (h : NodeEdit kept Below n m) : n.name = m.name := by
  cases h <;> rfl

theorem NodeEdit.argument?_eq (h : NodeEdit kept Below n m) : n.plain.argument? = m.plain.argument? := by
  cases h with
  | annotation | children => simp only [Node.plain, Kdl.Node.argument?, Kdl.Node.items]
  | items h =>
    simp only [Node.plain]
    exact h.findSome?_argument?

theorem NodeEdit.property?_eq (h : NodeEdit kept Below n m) {name : String} (hname : name ∈ kept) :
    n.plain.property? name = m.plain.property? name := by
  cases h with
  | annotation | children => simp only [Node.plain, Kdl.Node.property?, Kdl.Node.items]
  | items h =>
    simp only [Node.plain]
    exact h.findSome?_property? hname

/-- What is looked at in the nodes of a name stays, if edits of a node keep it. -/
theorem NodesEdit.map_filter {name : String} {d d' : Document} (h : NodesEdit name Within d d') {β : Type}
    {f : Kdl.Node → β} (hname : ∀ {n m}, Within n m → n.name = m.name)
    (hf : ∀ {n m}, Within n m → f n.plain = f m.plain) :
    ((plain d).filter fun n => n.name = name).map f = ((plain d').filter fun n => n.name = name).map f := by
  simp only [plain_eq_map]
  cases h with
  | other h before after => simp [h]
  | within h before after => simp [List.filter_cons, hname h, hf h, apply_ite (List.map f)]

end Kdl.Annotated

namespace PolicyDocument

open Kdl.Annotated (NodeEdit NodesEdit plain)

/-! ## Directives -/

/-- A node whose key, flag and value are of their kinds, the flag and the value if they are there. -/
structure IsValid (n : Kdl.Node) : Prop where
  key : ∃ key, n.argument? = some (.text key)
  disabled : ∀ v, n.property? "disabled" = some v → ∃ b, v = .boolean b
  value : ∀ v, n.property? "value" = some v → ∃ s, v = .text s

/-- What a valid node says: its key, its flag, which is off if it is not there, and the texts that it gives for a value,
each on a line. -/
structure Describes (n : Kdl.Node) (e : Entry) : Prop where
  key : ∃ key, n.argument? = some (.text key) ∧ e.key = .ofName key
  disabled : (n.property? "disabled").getD (.boolean false) = .boolean e.disabled
  value : e.value = Text.joinStrings "\n" (pieces n)

/-- What is wrong with a node that is not valid: the first of its key, its flag and its value that is of another
kind. -/
inductive Offends (n : Kdl.Node) : Fault → Prop
  | key (h : ∀ key, n.argument? ≠ some (.text key)) : Offends n .missingKey
  | disabled {key : String} {v : Kdl.Value} (hkey : n.argument? = some (.text key))
    (h : n.property? "disabled" = some v) (hv : ∀ b, v ≠ .boolean b) : Offends n (.disabledNotBoolean key)
  | value {key : String} {v : Kdl.Value} (hkey : n.argument? = some (.text key))
    (hdisabled : ∀ w, n.property? "disabled" = some w → ∃ b, w = .boolean b)
    (h : n.property? "value" = some v) (hv : ∀ s, v ≠ .text s) : Offends n (.valueNotText key)

variable {n m : Kdl.Node} {e : Entry} {f : Fault}

theorem Offends.not_isValid (h : Offends n f) : ¬ IsValid n := by
  intro hv
  cases h with
  | key h =>
    obtain ⟨key, hkey⟩ := hv.key
    exact h key hkey
  | disabled _ h hb =>
    obtain ⟨b, hb'⟩ := hv.disabled _ h
    exact hb b hb'
  | value _ _ h hs =>
    obtain ⟨s, hs'⟩ := hv.value _ h
    exact hs s hs'

theorem readKey_eq_ok_iff {key : String} : readKey n = .ok key ↔ n.argument? = some (.text key) := by
  unfold readKey Kdl.Node.textArgument?
  cases n.argument? with
  | none => simp
  | some v => cases v <;> simp [Kdl.Value.text?]

theorem readKey_eq_error_iff : readKey n = .error f ↔ f = .missingKey ∧ ∀ key, n.argument? ≠ some (.text key) := by
  unfold readKey Kdl.Node.textArgument?
  cases n.argument? with
  | none => simp [eq_comm]
  | some v => cases v <;> simp [Kdl.Value.text?, eq_comm]

theorem readDisabled_eq_ok_iff {key : String} {b : Bool} :
    readDisabled key n = .ok b ↔ (n.property? "disabled").getD (.boolean false) = .boolean b := by
  unfold readDisabled
  cases n.property? "disabled" with
  | none => simp
  | some v => cases v <;> simp

theorem readDisabled_eq_error_iff {key : String} : readDisabled key n = .error f ↔
    f = .disabledNotBoolean key ∧ ∃ v, n.property? "disabled" = some v ∧ ∀ b, v ≠ .boolean b := by
  unfold readDisabled
  cases n.property? "disabled" with
  | none => simp
  | some v => cases v <;> simp [eq_comm]

theorem readValue_eq_ok_iff {key : String} {value? : Option String} :
    readValue key n = .ok value? ↔ n.property? "value" = value?.map .text := by
  unfold readValue
  cases n.property? "value" with
  | none => cases value? <;> simp
  | some v => cases v <;> cases value? <;> simp

theorem readValue_eq_error_iff {key : String} : readValue key n = .error f ↔
    f = .valueNotText key ∧ ∃ v, n.property? "value" = some v ∧ ∀ s, v ≠ .text s := by
  unfold readValue
  cases n.property? "value" with
  | none => simp
  | some v => cases v <;> simp [eq_comm]

theorem bind_eq_ok_iff {ε α β : Type} {x : Except ε α} {k : α → Except ε β} {b : β} :
    (x >>= k) = .ok b ↔ ∃ a, x = .ok a ∧ k a = .ok b := by
  cases x <;> simp [bind, Except.bind]

theorem bind_eq_error_iff {ε α β : Type} {x : Except ε α} {k : α → Except ε β} {e : ε} :
    (x >>= k) = .error e ↔ x = .error e ∨ ∃ a, x = .ok a ∧ k a = .error e := by
  cases x <;> simp [bind, Except.bind]

/-- A node is read as an entry exactly when it is valid and describes that entry. -/
theorem readEntry_eq_ok_iff : readEntry n = .ok e ↔ IsValid n ∧ Describes n e := by
  unfold readEntry
  simp only [bind_eq_ok_iff, readKey_eq_ok_iff, readDisabled_eq_ok_iff, readValue_eq_ok_iff]
  constructor
  · rintro ⟨key, hkey, disabled, hdisabled, value?, hvalue, he⟩
    cases he
    refine ⟨⟨⟨key, hkey⟩, fun v hv => ?_, fun v hv => ?_⟩, ⟨key, hkey, rfl⟩, hdisabled, ?_⟩
    · rw [hv] at hdisabled
      exact ⟨disabled, hdisabled⟩
    · rw [hv] at hvalue
      obtain ⟨s, -, hs⟩ := Option.map_eq_some_iff.mp hvalue.symm
      exact ⟨s, hs.symm⟩
    · rw [pieces_eq, hvalue]
      cases value? <;> rfl
  · rintro ⟨hvalid, ⟨key, hkey, hek⟩, hdisabled, hvalue⟩
    refine ⟨key, hkey, e.disabled, hdisabled, (n.property? "value").bind Kdl.Value.text?, ?_, ?_⟩
    · cases h : n.property? "value" with
      | none => rfl
      | some v =>
        obtain ⟨s, rfl⟩ := hvalid.value v h
        rfl
    · rw [← pieces_eq, ← hvalue, ← hek]
      rfl

/-- A node is refused exactly for what is wrong with it. -/
theorem readEntry_eq_error_iff : readEntry n = .error f ↔ Offends n f := by
  unfold readEntry
  simp only [bind_eq_error_iff, readKey_eq_ok_iff, readDisabled_eq_ok_iff, readKey_eq_error_iff,
    readDisabled_eq_error_iff, readValue_eq_error_iff]
  -- each check is made only if those before it succeed
  constructor
  · rintro (⟨rfl, h⟩ | ⟨key, hkey, ⟨rfl, v, h, hv⟩ | ⟨b, hb, ⟨rfl, v, h, hv⟩ | ⟨_, _, h⟩⟩⟩)
    · exact .key h
    · exact .disabled hkey h hv
    · exact .value hkey (fun w hw => ⟨b, by rwa [hw] at hb⟩) h hv
    · cases h
  · intro h
    cases h with
    | key h => exact .inl ⟨rfl, h⟩
    | disabled hkey h hv => exact .inr ⟨_, hkey, .inl ⟨rfl, _, h, hv⟩⟩
    | value hkey hdisabled h hv =>
      obtain ⟨b, hb⟩ : ∃ b, (n.property? "disabled").getD (.boolean false) = .boolean b := by
        cases hd : n.property? "disabled" with
        | none => exact ⟨false, rfl⟩
        | some w => exact hdisabled w hd
      exact .inr ⟨_, hkey, .inr ⟨b, hb, .inl ⟨rfl, _, h, hv⟩⟩⟩

/-! ## Documents -/

variable {d : Kdl.Document} {es : List Entry}

/-- An accepted document has an entry for each of its nodes that are meant as directives. -/
theorem entries_eq_ok_iff : entries d = .ok es ↔
    (∀ n ∈ d.filter isEntry, IsValid n) ∧ List.Forall₂ Describes (d.filter isEntry) es := by
  rw [← List.forall₂_and_left]
  induction d generalizing es with
  | nil => simp [entries, eq_comm]
  | cons n ns ih =>
    unfold entries
    split
    · rename_i hn
      simp only [bind_eq_ok_iff, readEntry_eq_ok_iff, ih, List.filter_cons_of_pos hn, List.forall₂_cons_left_iff]
      constructor
      · rintro ⟨e, he, es, hes, h⟩
        cases h
        exact ⟨e, es, he, hes, rfl⟩
      · rintro ⟨e, es, he, hes, rfl⟩
        exact ⟨e, he, es, hes, rfl⟩
    · rename_i hn
      rw [ih, List.filter_cons_of_neg hn]

/-- What is wrong behind nodes that are valid or not meant as directives. -/
theorem entries_append_of_error {before : Kdl.Document} (hb : ∀ m ∈ before, isEntry m = true → IsValid m)
    (h : entries d = .error f) : entries (before ++ d) = .error f := by
  induction before with
  | nil => exact h
  | cons n ns ih =>
    obtain ⟨hn, hb⟩ := List.forall_mem_cons.mp hb
    rw [List.cons_append]
    unfold entries
    split
    · rename_i hentry
      obtain ⟨e, he⟩ : ∃ e, readEntry n = .ok e := by
        cases he : readEntry n with
        | ok e => exact ⟨e, rfl⟩
        | error f => exact absurd (hn hentry) (readEntry_eq_error_iff.mp he).not_isValid
      exact bind_eq_error_iff.mpr (.inr ⟨e, he, bind_eq_error_iff.mpr (.inl (ih hb))⟩)
    · exact ih hb

/-- A refused document has a first node that is meant as a directive and is none. -/
theorem entries_eq_error_iff : entries d = .error f ↔
    ∃ before n after, d = before ++ n :: after ∧ (∀ m ∈ before, isEntry m = true → IsValid m) ∧ isEntry n = true ∧
      Offends n f := by
  constructor
  · intro h
    -- the first node is at fault, or it is one of those before the node at fault in the rest
    induction d with
    | nil => cases h
    | cons n ns ih =>
      unfold entries at h
      split at h
      · rename_i hn
        rcases bind_eq_error_iff.mp h with h | ⟨e, he, h⟩
        · exact ⟨[], n, ns, rfl, fun _ hm => absurd hm List.not_mem_nil, hn, readEntry_eq_error_iff.mp h⟩
        · rcases bind_eq_error_iff.mp h with h | ⟨_, _, h⟩
          · obtain ⟨before, m, after, rfl, hb, hm⟩ := ih h
            have hvalid := (readEntry_eq_ok_iff.mp he).1
            exact ⟨n :: before, m, after, rfl, List.forall_mem_cons.mpr ⟨fun _ => hvalid, hb⟩, hm⟩
          · cases h
      · rename_i hn
        obtain ⟨before, m, after, rfl, hb, hm⟩ := ih h
        exact ⟨n :: before, m, after, rfl, List.forall_mem_cons.mpr ⟨fun h => absurd h hn, hb⟩, hm⟩
  · rintro ⟨before, n, after, rfl, hb, hn, hf⟩
    refine entries_append_of_error hb ?_
    unfold entries
    rw [if_pos hn]
    exact bind_eq_error_iff.mpr (.inl (readEntry_eq_error_iff.mpr hf))

theorem exists_entries_iff : (∃ es, entries d = .ok es) ↔ ∀ n ∈ d, isEntry n = true → IsValid n := by
  constructor
  · rintro ⟨es, h⟩ n hn hentry
    exact (entries_eq_ok_iff.mp h).1 n (List.mem_filter.mpr ⟨hn, hentry⟩)
  · intro hvalid
    cases h : entries d with
    | ok es => exact ⟨es, rfl⟩
    | error f =>
      obtain ⟨before, n, after, rfl, -, hn, hf⟩ := entries_eq_error_iff.mp h
      exact absurd (hvalid n (by simp) hn) hf.not_isValid

/-! ## What does not count -/

/-- An edit of a child `-`, of which only the first argument counts. -/
abbrev LineEdit : Kdl.Annotated.Node → Kdl.Annotated.Node → Prop := NodeEdit [] fun _ _ => True

/-- An edit of a directive that does not count. -/
abbrev EntryEdit : Kdl.Annotated.Node → Kdl.Annotated.Node → Prop :=
  NodeEdit ["disabled", "value"] (NodesEdit "-" LineEdit)

/-- An edit of a document that does not count: of nodes that are not meant as directives, or of what is not looked at in
those that are. -/
abbrev Edit : Kdl.Annotated.Document → Kdl.Annotated.Document → Prop := NodesEdit "entry" EntryEdit

theorem listLines_eq_filterMap (n : Kdl.Node) :
    listLines n = ((n.children.filter fun c => c.name = "-").map Kdl.Node.textArgument?).filterMap id := by
  rw [List.filterMap_map]
  rfl

theorem listLines_plain {n m : Kdl.Annotated.Node} (h : EntryEdit n m) : listLines n.plain = listLines m.plain := by
  rw [listLines_eq_filterMap, listLines_eq_filterMap]
  cases h with
  | annotation | items => simp only [Kdl.Annotated.Node.plain, Kdl.Node.children]
  | children h =>
    simp only [Kdl.Annotated.Node.plain, Kdl.Node.children]
    rw [h.map_filter (fun h => h.name_eq) fun h => congrArg (·.bind Kdl.Value.text?) h.argument?_eq]

theorem readEntry_plain {n m : Kdl.Annotated.Node} (h : EntryEdit n m) : readEntry n.plain = readEntry m.plain := by
  have hkey : n.plain.argument? = m.plain.argument? := h.argument?_eq
  have hdisabled : n.plain.property? "disabled" = m.plain.property? "disabled" := h.property?_eq (by decide)
  have hvalue : n.plain.property? "value" = m.plain.property? "value" := h.property?_eq (by decide)
  unfold readEntry readKey readDisabled readValue Kdl.Node.textArgument?
  rw [hkey, hdisabled, hvalue, listLines_plain h]

/-- Only the nodes that are meant as directives are read. -/
theorem entries_eq_mapM (d : Kdl.Document) : entries d = ((d.filter isEntry).map readEntry).mapM id := by
  induction d with
  | nil => rfl
  | cons n ns ih =>
    unfold entries
    split
    · rename_i hn
      rw [List.filter_cons_of_pos hn, List.map_cons, List.mapM_cons, ih]
      rfl
    · rename_i hn
      rw [List.filter_cons_of_neg hn, ih]

/-- One edit does not count. -/
theorem entries_plain {d d' : Kdl.Annotated.Document} (h : Edit d d') : entries (plain d) = entries (plain d') := by
  rw [entries_eq_mapM, entries_eq_mapM]
  exact congrArg (List.mapM id) (h.map_filter (fun h => h.name_eq) readEntry_plain)

/-- Any edits, made or undone, do not count. -/
theorem entries_plain_of_eqvGen {d d' : Kdl.Annotated.Document} (h : Relation.EqvGen Edit d d') :
    entries (plain d) = entries (plain d') := by
  induction h with
  | rel _ _ h => exact entries_plain h
  | refl _ => rfl
  | symm _ _ _ ih => exact ih.symm
  | trans _ _ _ _ _ ih ih' => exact ih.trans ih'

/-! ## Parsing -/

/-- What the directives of a document come to, on any host. -/
theorem result_directives {σ : Type} (host : Host σ) (s : σ) (d : Kdl.Document) :
    ((directives d).program.run host s).result = (entries d).mapError fun f => .invalidEntry f.message := by
  simp only [directives, Action.program, Action.of, Program.run_bind, Program.run]

theorem parse_of_read {source : String} {d : Kdl.Annotated.Document} (h : Kdl.read source = some d) :
    parse source = directives (plain d) := by
  have hparse : Kdl.parse source = some (plain d) := by rw [Kdl.parse, h, Option.map_some]
  unfold parse
  rw [hparse]

theorem mapError_eq_ok_iff {ε ε' α : Type} {x : Except ε α} {g : ε → ε'} {a : α} :
    x.mapError g = .ok a ↔ x = .ok a := by
  cases x <;> simp [Except.mapError]

theorem mapError_eq_error_iff {ε ε' α : Type} {x : Except ε α} {g : ε → ε'} {e' : ε'} :
    x.mapError g = .error e' ↔ ∃ e, x = .error e ∧ g e = e' := by
  cases x <;> simp [Except.mapError]

end PolicyDocument

end AdminPolicy
