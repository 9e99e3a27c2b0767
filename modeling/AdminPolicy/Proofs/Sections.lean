import AdminPolicy.Proofs.KeyFileLines

/-!
# Sections that are opened again

A file gives a key its values under the headers of a section, in order (`valuesOf`): those of the first block of the
section, then those of the blocks that open it again (`valuesOf_eq_append`). Looking a key up stops at the first block
(`get?_blocksFrom`), so it finds the last value in the file only if no later block gives the key one.
-/

namespace AdminPolicy.KeyFile

open Text

/-! ## Values in the order of a file -/

/-- The values that a key is given under the headers of a section, in order. What stands before any header in the list
stands under `name?`. -/
def valuesOf (sectionName key : List Char) (name? : Option (List Char)) : List Item → List (List Char)
  | [] => []
  | .header name :: items => valuesOf sectionName key (some name) items
  | .assignment key' value :: items =>
    if name? = some sectionName ∧ key' = key then value :: valuesOf sectionName key name? items
    else valuesOf sectionName key name? items

/-- The last value that a key is given under the headers of a section. -/
def lastValue? (items : List Item) (sectionName key : String) : Option String :=
  (valuesOf sectionName.toList key.toList none items).getLast?.map String.ofList

def Item.assignment? : Item → Option (List Char × List Char)
  | .header _ => none
  | .assignment key value => some (key, value)

/-- The items up to the next header. -/
def upToHeader (items : List Item) : List Item := items.takeWhile (·.assignment?.isSome)

/-- The items from the next header on. -/
def fromHeader (items : List Item) : List Item := items.dropWhile (·.assignment?.isSome)

theorem upToHeader_assignment (key value : List Char) (items : List Item) :
    upToHeader (.assignment key value :: items) = .assignment key value :: upToHeader items := rfl

theorem fromHeader_assignment (key value : List Char) (items : List Item) :
    fromHeader (.assignment key value :: items) = fromHeader items := rfl

/-- What stands behind the first header of a section. -/
def behindHeader (name : List Char) (items : List Item) : List Item := (items.dropWhile (· ≠ .header name)).drop 1

section valuesOf

variable (sectionName key : List Char)

/-- What begins at a header stands under that header, whichever was open before it. -/
theorem valuesOf_upToHeader_append (name? : Option (List Char)) (items : List Item) :
    valuesOf sectionName key name? items = valuesOf sectionName key name? (upToHeader items) ++
      valuesOf sectionName key none (fromHeader items) := by
  induction items with
  | nil => rfl
  | cons item items ih =>
    cases item with
    | header name => rfl
    | assignment key' value =>
      rw [upToHeader_assignment, fromHeader_assignment]
      simp only [valuesOf]
      split
      · rw [ih, List.cons_append]
      · exact ih

theorem behindHeader_header_self (items : List Item) :
    behindHeader sectionName (.header sectionName :: items) = items := by
  simp [behindHeader]

theorem behindHeader_of_ne {item : Item} (h : item ≠ .header sectionName) (items : List Item) :
    behindHeader sectionName (item :: items) = behindHeader sectionName items := by
  simp [behindHeader, h]

/-- The values of a section are those of its first block and those that follow. -/
theorem valuesOf_eq_append {name? : Option (List Char)} (h : name? ≠ some sectionName) (items : List Item) :
    valuesOf sectionName key name? items =
      valuesOf sectionName key (some sectionName) (upToHeader (behindHeader sectionName items)) ++
        valuesOf sectionName key none (fromHeader (behindHeader sectionName items)) := by
  induction items generalizing name? with
  | nil => rfl
  | cons item items ih =>
    cases item with
    | header name =>
      by_cases hname : name = sectionName
      · subst hname
        rw [behindHeader_header_self, ← valuesOf_upToHeader_append]
        rfl
      · rw [behindHeader_of_ne sectionName (fun he => hname (Item.header.inj he))]
        exact ih (fun he => hname (Option.some.inj he))
    | assignment key' value =>
      rw [behindHeader_of_ne sectionName (fun he => by cases he), valuesOf, if_neg (fun hand => h hand.1)]
      exact ih h

/-- Without a header in between, the values are those of a block. -/
theorem valuesOf_upToHeader (items : List Item) : valuesOf sectionName key (some sectionName) (upToHeader items) =
    (((upToHeader items).filterMap Item.assignment?).filter (·.1 = key)).map (·.2) := by
  induction items with
  | nil => rfl
  | cons item items ih =>
    cases item with
    | header name => rfl
    | assignment key' value =>
      have hhead : Item.assignment? (.assignment key' value) = some (key', value) := rfl
      rw [upToHeader_assignment, List.filterMap_cons_some hhead]
      by_cases hkey : key' = key
      · rw [valuesOf, if_pos ⟨rfl, hkey⟩, List.filter_cons_of_pos (by simpa using hkey), ih, List.map_cons]
      · rw [valuesOf, if_neg (fun hand => hkey hand.2), List.filter_cons_of_neg (by simpa using hkey), ih]

end valuesOf

/-! ## What is looked up -/

/-- The block that is open first holds what is assigned before the next header. -/
theorem blocksFrom_eq_cons (name? : Option (List Char)) (assignments : List (List Char × List Char))
    (items : List Item) : ∃ blocks, blocksFrom name? assignments items =
      ⟨name?, assignments ++ (upToHeader items).filterMap Item.assignment?⟩ :: blocks := by
  induction items generalizing assignments with
  | nil => exact ⟨[], by simp [blocksFrom, upToHeader]⟩
  | cons item items ih =>
    cases item with
    | header name => exact ⟨blocksFrom (some name) [] items, by simp [blocksFrom, upToHeader, Item.assignment?]⟩
    | assignment key value =>
      obtain ⟨blocks, hblocks⟩ := ih (assignments ++ [(key, value)])
      exact ⟨blocks, by simp [blocksFrom, hblocks, upToHeader_assignment, Item.assignment?]⟩

/-- **What is looked up is the last value of the first block of the section.** -/
theorem get?_blocksFrom (sectionName key : String) {name? : Option (List Char)} (h : name? ≠ some sectionName.toList)
    (assignments : List (List Char × List Char)) (items : List Item) :
    get? ⟨blocksFrom name? assignments items⟩ sectionName key =
      (valuesOf sectionName.toList key.toList (some sectionName.toList)
        (upToHeader (behindHeader sectionName.toList items))).getLast?.map String.ofList := by
  induction items generalizing name? assignments with
  | nil => simp [get?, blocksFrom, h, behindHeader, upToHeader, valuesOf]
  | cons item items ih =>
    cases item with
    | header name =>
      have hskip : get? ⟨blocksFrom name? assignments (.header name :: items)⟩ sectionName key =
          get? ⟨blocksFrom (some name) [] items⟩ sectionName key := by
        simp [get?, blocksFrom, h]
      rw [hskip]
      by_cases hname : name = sectionName.toList
      · subst hname
        obtain ⟨blocks, hblocks⟩ := blocksFrom_eq_cons (some sectionName.toList) [] items
        rw [behindHeader_header_self, valuesOf_upToHeader, hblocks]
        simp [get?, List.findRev?_eq_find?_reverse, List.getLast?_filter, Function.comp_def]
      · rw [behindHeader_of_ne _ (fun he => hname (Item.header.inj he))]
        exact ih (fun he => hname (Option.some.inj he)) []
    | assignment key' value =>
      rw [behindHeader_of_ne _ (fun he => by cases he), blocksFrom]
      exact ih h _

/-- **A key is looked up in the first block of its section.** Lines that each yield something make a key file. There the
last value of the key under the first header of the section counts: it is the last value in the file unless the section
is opened again and gives the key a value there. -/
theorem get?_of_yields {source : String} {itemss : List (List Item)}
    (h : List.Forall₂ Yields (linesOf source) itemss) : ∃ file, parse source = .ok file ∧ ∀ sectionName key : String,
      file.get? sectionName key = (valuesOf sectionName.toList key.toList (some sectionName.toList)
        (upToHeader (behindHeader sectionName.toList itemss.flatten))).getLast?.map String.ofList ∧
      lastValue? itemss.flatten sectionName key =
        (lastValue? (fromHeader (behindHeader sectionName.toList itemss.flatten)) sectionName key).or
          (file.get? sectionName key) := by
  have hscan : scan .between 0 true (dropMark source.toList) = .ok itemss.flatten := by
    rw [← joinWith_splitOn '\n' (dropMark source.toList)]
    exact scan_lines h (fun l hl => not_mem_of_mem_splitOn hl) 0
  refine ⟨⟨blocksFrom none [] itemss.flatten⟩, by rw [parse, hscan]; rfl, fun sectionName key => ?_⟩
  have hnone : none ≠ some sectionName.toList := (Option.some_ne_none _).symm
  have hget := get?_blocksFrom sectionName key hnone [] itemss.flatten
  refine ⟨hget, ?_⟩
  rw [hget, lastValue?, valuesOf_eq_append _ _ hnone, List.getLast?_append, Option.map_or]
  rfl

/-- A section that is opened twice and gives its key a value each time. -/
def reopened : String :=
  "[Configuration]\nAdminIdentities=unix-user:a\n[Configuration]\nAdminIdentities=unix-user:b\n"

def reopenedItems : List (List Item) :=
  [[.header "Configuration".toList], [.assignment "AdminIdentities".toList "unix-user:a".toList],
    [.header "Configuration".toList], [.assignment "AdminIdentities".toList "unix-user:b".toList], []]

theorem yields_reopened : List.Forall₂ Yields (linesOf reopened) reopenedItems := by
  have hfirst := yields_adminIdentities (show '\r' ∉ "unix-user:a".toList by decide +kernel)
  have hsecond := yields_adminIdentities (show '\r' ∉ "unix-user:b".toList by decide +kernel)
  have hend : Yields [] [] := .blank [] nofun
  exact .cons yields_configuration (.cons hfirst (.cons yields_configuration (.cons hsecond (.cons hend .nil))))

/-- Opened again, a section is looked up in its first block. -/
theorem get?_of_yields_reopened : List.Forall₂ Yields (linesOf reopened) reopenedItems ∧
    ∃ file, parse reopened = .ok file ∧ file.get? "Configuration" "AdminIdentities" = some "unix-user:a" := by
  refine ⟨yields_reopened, ?_⟩
  obtain ⟨file, hfile, hget⟩ := get?_of_yields yields_reopened
  exact ⟨file, hfile, (hget "Configuration" "AdminIdentities").1.trans (by decide +kernel)⟩

/-- **The last value in the file is not what is looked up.** -/
theorem not_get?_eq_lastValue? : ¬ ∀ (source : String) (itemss : List (List Item)) (file : KeyFile),
    List.Forall₂ Yields (linesOf source) itemss → parse source = .ok file → ∀ sectionName key : String,
      file.get? sectionName key = lastValue? itemss.flatten sectionName key := by
  intro h
  have hparse : ∃ file, parse reopened = .ok file ∧ file.get? "Configuration" "AdminIdentities" = some "unix-user:a" :=
    ⟨⟨blocksFrom none [] reopenedItems.flatten⟩, by decide +kernel, by decide +kernel⟩
  obtain ⟨file, hfile, hget⟩ := hparse
  have hlast := h reopened _ file yields_reopened hfile "Configuration" "AdminIdentities"
  rw [hget] at hlast
  exact absurd hlast (by decide +kernel)

end AdminPolicy.KeyFile
