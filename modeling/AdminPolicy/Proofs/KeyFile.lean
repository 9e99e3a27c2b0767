import AdminPolicy.KeyFile

/-!
# Values of key files

A value that a key file assigns lies on one line and has no blanks at its ends (`IsValue`); whatever is looked up in a
key file is such a value (`isValue_of_get?`). Conversely the scanner passes over what such a text is put together from
piece by piece: a comment, a header, a key, and a value up to the end of its line (`scan_comment`, `scan_header`,
`scan_key`, `scan_value`).
-/

namespace AdminPolicy.KeyFile

open Text

/-- A text on one line without blanks at its ends. -/
structure IsValue (s : List Char) : Prop where
  head : ∀ c ∈ s.head?, isBlank c = false
  last : ∀ c ∈ s.getLast?, isBlank c = false
  lineFeed : '\n' ∉ s
  carriageReturn : '\r' ∉ s

/-! ## Trimming -/

theorem dropWhile_eq_self {p : Char → Bool} {s : List Char} (h : ∀ c ∈ s.head?, p c = false) : s.dropWhile p = s := by
  cases s with
  | nil => rfl
  | cons c s => rw [List.dropWhile_cons_of_neg (by simp [h c rfl])]

/-- A text without blanks at its ends is left alone. -/
theorem IsValue.trim_eq {s : List Char} (h : IsValue s) : trim s = s := by
  have hl : trimLeft s = s := dropWhile_eq_self h.head
  have hr : s.reverse.dropWhile isBlank = s.reverse :=
    dropWhile_eq_self fun c hc => h.last c (by rwa [List.head?_reverse] at hc)
  rw [trim, hl, trimRight, hr, List.reverse_reverse]

theorem trimRight_isPrefix (s : List Char) : trimRight s <+: s := by
  rw [trimRight, ← List.reverse_suffix, List.reverse_reverse]
  exact List.dropWhile_suffix _

theorem mem_of_mem_trim {s : List Char} {c : Char} (h : c ∈ trim s) : c ∈ s :=
  (List.dropWhile_suffix _).subset ((trimRight_isPrefix _).subset h)

/-- A trimmed text does not begin with a blank. -/
theorem head?_trim (s : List Char) : ∀ c ∈ (trim s).head?, isBlank c = false := by
  intro c hc
  refine head?_trimLeft s c ?_
  obtain ⟨t, ht⟩ := trimRight_isPrefix (trimLeft s)
  rw [← ht, List.head?_append]
  unfold trim at hc
  rw [Option.mem_def.mp hc]
  rfl

theorem isValue_trim {s : List Char} (hn : '\n' ∉ s) (hr : '\r' ∉ s) : IsValue (trim s) where
  head := head?_trim s
  last := getLast?_trim s
  lineFeed := fun h => hn (mem_of_mem_trim h)
  carriageReturn := fun h => hr (mem_of_mem_trim h)

/-- A text without blanks anywhere is a value. -/
theorem isValue_of_forall {s : List Char} (h : ∀ c ∈ s, isBlank c = false) : IsValue s where
  head := fun c hc => h c (List.mem_of_mem_head? hc)
  last := fun c hc => h c (List.mem_of_getLast? hc)
  lineFeed := fun hn => absurd (h _ hn) (by decide)
  carriageReturn := fun hr => absurd (h _ hr) (by decide)

/-- A value and, behind it, a text without blanks. -/
theorem IsValue.append {s t : List Char} (hs : IsValue s) (ht : ∀ c ∈ t, isBlank c = false) (hn : t ≠ []) :
    IsValue (s ++ t) where
  head := by
    intro c hc
    cases s with
    | nil => exact ht c (List.mem_of_mem_head? hc)
    | cons d s => exact hs.head c hc
  last := by
    intro c hc
    cases hl : t.getLast? with
    | none => exact absurd (List.getLast?_eq_none_iff.mp hl) hn
    | some d =>
      rw [List.getLast?_append, hl] at hc
      exact ht c (List.mem_of_getLast? (hl.trans hc))
  lineFeed := fun h => (List.mem_append.mp h).elim hs.lineFeed fun h => absurd (ht _ h) (by decide)
  carriageReturn := fun h => (List.mem_append.mp h).elim hs.carriageReturn fun h => absurd (ht _ h) (by decide)

/-! ## What is read is a value -/

/-- What has been collected of a value holds no end of a line. -/
def Mode.OnLine : Mode → Prop
  | .value _ sofar => '\n' ∉ sofar ∧ '\r' ∉ sofar
  | _ => True

theorem isValue_collected {sofar : List Char} (h : '\n' ∉ sofar ∧ '\r' ∉ sofar) : IsValue (collected sofar) :=
  isValue_trim (by simpa using h.1) (by simpa using h.2)

theorem mem_of_map_cons {item : Item} {r : Except SyntaxError (List Item)} {items : List Item}
    (h : r.map (item :: ·) = .ok items) : ∃ rest, r = .ok rest ∧ items = item :: rest := by
  cases r with
  | error e => cases h
  | ok rest => exact ⟨rest, rfl, (Except.ok.inj h).symm⟩

/-- **Every value that is read is one.** -/
theorem isValue_of_mem_scan {cs : List Char} {mode : Mode} {line : Nat} {first : Bool} {items : List Item}
    (h : scan mode line first cs = .ok items) (hm : mode.OnLine) :
    ∀ key value, .assignment key value ∈ items → IsValue value := by
  induction cs generalizing mode line first items with
  | nil =>
    cases mode with
    | between => cases Except.ok.inj h; exact fun _ _ hi => absurd hi List.not_mem_nil
    | comment => cases Except.ok.inj h; exact fun _ _ hi => absurd hi List.not_mem_nil
    | header _ => cases h
    | key _ => cases h
    | value key sofar =>
      cases Except.ok.inj h
      intro key' value hi
      cases List.mem_singleton.mp hi
      exact isValue_collected hm
  | cons c cs ih =>
    cases mode with
    | between =>
      simp only [scan] at h
      split at h
      · exact ih h trivial
      split at h
      · split at h
        · exact ih h trivial
        · cases h
      split at h
      · exact ih h trivial
      split at h
      · cases h
      · exact ih h trivial
    | comment =>
      simp only [scan] at h
      split at h
      · exact ih h trivial
      · exact ih h trivial
    | header sofar =>
      simp only [scan] at h
      split at h
      · obtain ⟨rest, hr, rfl⟩ := mem_of_map_cons h
        intro key value hi
        exact ih hr trivial key value ((List.mem_cons.mp hi).resolve_left (by simp))
      · exact ih h trivial
    | key sofar =>
      simp only [scan] at h
      split at h
      · exact ih h ⟨List.not_mem_nil, List.not_mem_nil⟩
      · exact ih h trivial
    | value key sofar =>
      simp only [scan] at h
      split at h
      · obtain ⟨rest, hr, rfl⟩ := mem_of_map_cons h
        intro key' value hi
        rcases List.mem_cons.mp hi with hi | hi
        · cases hi
          exact isValue_collected hm
        · exact ih hr trivial key' value hi
      · rename_i hc
        simp only [Bool.or_eq_true, decide_eq_true_eq, not_or] at hc
        refine ih h ⟨fun hn => ?_, fun hr => ?_⟩
        · exact (List.mem_cons.mp hn).elim (fun h => hc.1 h.symm) hm.1
        · exact (List.mem_cons.mp hr).elim (fun h => hc.2 h.symm) hm.2

/-- The assignments of blocks are among those that were open or are read. -/
theorem mem_blocksFrom {name? : Option (List Char)} {open? : List (List Char × List Char)} {items : List Item}
    {b : Block} (hb : b ∈ blocksFrom name? open? items) {a : List Char × List Char} (ha : a ∈ b.assignments) :
    a ∈ open? ∨ .assignment a.1 a.2 ∈ items := by
  induction items generalizing name? open? with
  | nil =>
    cases List.mem_singleton.mp hb
    exact Or.inl ha
  | cons item items ih =>
    cases item with
    | header name =>
      rcases List.mem_cons.mp hb with rfl | hb
      · exact Or.inl ha
      · exact (ih hb).elim (fun h => absurd h List.not_mem_nil) fun h => Or.inr (List.mem_cons_of_mem _ h)
    | assignment key value =>
      rcases ih hb with h | h
      · rcases List.mem_append.mp h with h | h
        · exact Or.inl h
        · cases List.mem_singleton.mp h
          exact Or.inr List.mem_cons_self
      · exact Or.inr (List.mem_cons_of_mem _ h)

theorem mem_of_findRev? {α : Type} {p : α → Bool} {l : List α} {a : α} (h : l.findRev? p = some a) : a ∈ l := by
  rw [List.findRev?_eq_findRev?TR] at h
  exact List.mem_reverse.mp (List.mem_of_find?_eq_some h)

/-- Whatever is looked up in a key file is a value. -/
theorem isValue_of_get? {source : String} {file : KeyFile} (hf : parse source = .ok file) {sectionName key v : String}
    (h : file.get? sectionName key = some v) : IsValue v.toList := by
  unfold parse at hf
  cases hs : scan .between 0 true (dropMark source.toList) with
  | error e => rw [hs] at hf; cases hf
  | ok items =>
    rw [hs] at hf
    cases Except.ok.inj hf
    unfold get? at h
    split at h
    · cases h
    · rename_i b hb
      obtain ⟨a, ha, rfl⟩ := Option.map_eq_some_iff.mp h
      have hmem := mem_blocksFrom (List.mem_of_find?_eq_some hb) (mem_of_findRev? ha)
      simp only [String.toList_ofList]
      exact isValue_of_mem_scan hs trivial _ _ (hmem.resolve_left List.not_mem_nil)

/-! ## Reading what is written -/

theorem not_mem_cons {c d : Char} {s : List Char} (h : d ∉ c :: s) : c ≠ d ∧ d ∉ s :=
  ⟨fun e => h (e ▸ List.mem_cons_self), fun hs => h (List.mem_cons_of_mem _ hs)⟩

/-- A comment reaches to the end of its line. -/
theorem scan_comment {text : List Char} (h : '\n' ∉ text) (line : Nat) (first : Bool) (rest : List Char) :
    scan .comment line first (text ++ '\n' :: rest) = scan .between (line + 1) true rest := by
  induction text generalizing first with
  | nil => rfl
  | cons c text ih =>
    obtain ⟨hc, h⟩ := not_mem_cons h
    simp only [List.cons_append, scan, hc, ↓reduceIte, decide_false]
    exact ih h false

/-- A header reaches to its bracket. -/
theorem scan_header {text : List Char} (h : '\n' ∉ text) (hb : ']' ∉ text) (sofar : List Char) (line : Nat)
    (first : Bool) (rest : List Char) : scan (.header sofar) line first (text ++ ']' :: rest) =
      (scan .between line false rest).map (.header (collected (text.reverse ++ sofar)) :: ·) := by
  induction text generalizing sofar first with
  | nil => rfl
  | cons c text ih =>
    obtain ⟨hc, h⟩ := not_mem_cons h
    obtain ⟨hcb, hb⟩ := not_mem_cons hb
    simp only [List.cons_append, scan, hc, hcb, ↓reduceIte, decide_false]
    rw [ih h hb]
    simp

/-- A key reaches to its separator. -/
theorem scan_key {text : List Char} (h : '\n' ∉ text) (he : '=' ∉ text) (hc : ':' ∉ text) (sofar : List Char)
    (line : Nat) (first : Bool) (rest : List Char) : scan (.key sofar) line first (text ++ '=' :: rest) =
      scan (.value (text.reverse ++ sofar) []) line false rest := by
  induction text generalizing sofar first with
  | nil => rfl
  | cons c text ih =>
    obtain ⟨hn, h⟩ := not_mem_cons h
    obtain ⟨hce, he⟩ := not_mem_cons he
    obtain ⟨hcc, hc⟩ := not_mem_cons hc
    simp only [List.cons_append, scan, hn, hce, hcc, ↓reduceIte, decide_false, Bool.or_self, Bool.false_eq_true]
    rw [ih h he hc]
    simp

/-- What stands in a value is collected. -/
theorem scan_value_append {text : List Char} (h : '\n' ∉ text) (hr : '\r' ∉ text) (key sofar : List Char) (line : Nat)
    (first : Bool) : ∃ first', ∀ rest, scan (.value key sofar) line first (text ++ rest) =
      scan (.value key (text.reverse ++ sofar)) line first' rest := by
  induction text generalizing sofar first with
  | nil => exact ⟨first, fun _ => rfl⟩
  | cons c text ih =>
    obtain ⟨hn, h⟩ := not_mem_cons h
    obtain ⟨hcr, hr⟩ := not_mem_cons hr
    obtain ⟨first', hrest⟩ := ih h hr (c :: sofar) false
    refine ⟨first', fun rest => ?_⟩
    simp only [List.cons_append, scan, hn, hcr, ↓reduceIte, decide_false, Bool.or_self, Bool.false_eq_true]
    simpa using hrest rest

/-- A value reaches to the end of its line. -/
theorem scan_value {text : List Char} (h : '\n' ∉ text) (hr : '\r' ∉ text) (key sofar : List Char) (line : Nat)
    (first : Bool) (rest : List Char) : scan (.value key sofar) line first (text ++ '\n' :: rest) =
      (scan .between (line + 1) true rest).map
        (.assignment (collected key) (collected (text.reverse ++ sofar)) :: ·) := by
  obtain ⟨first', hrest⟩ := scan_value_append h hr key sofar line first
  rw [hrest]
  rfl

end AdminPolicy.KeyFile
