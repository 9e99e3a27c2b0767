import AdminPolicy.Proofs.KeyFile
import AdminPolicy.Text.Split
import Mathlib.Data.List.Forall2
import Mathlib.Data.List.TakeWhile

/-!
# Key files line by line

A character is a fault, or it completes items and reading goes on, whatever follows it (`scan_cons`). So what is read up
to the end of a line stays read (`scan_append_lineFeed`), and lines of which each yields something on its own (`Yields`)
are read one after the other (`scan_lines`).
-/

namespace AdminPolicy.KeyFile

open Text

/-- The lines of a text behind the mark that it may begin with. -/
def linesOf (source : String) : List (List Char) := splitOn '\n' (dropMark source.toList)

/-! ## One character -/

theorem map_nil_append (r : Except SyntaxError (List Item)) : r.map ([] ++ ·) = r := by
  cases r <;> rfl

theorem map_append_append (r : Except SyntaxError (List Item)) (items items' : List Item) :
    (r.map (items' ++ ·)).map (items ++ ·) = r.map ((items ++ items') ++ ·) := by
  cases r with
  | error e => rfl
  | ok rest => exact congrArg Except.ok (List.append_assoc items items' rest).symm

/-- A character is a fault, or it completes items and reading goes on in some mode, whatever follows. -/
theorem scan_cons (mode : Mode) (line : Nat) (first : Bool) (c : Char) :
    (∃ fault, ∀ cs, scan mode line first (c :: cs) = .error ⟨fault, line + 2⟩) ∨
      ∃ mode' line' first' items, ∀ cs, scan mode line first (c :: cs) =
        (scan mode' line' first' cs).map (items ++ ·) := by
  cases mode with
  | between =>
    simp only [scan]
    split
    · exact Or.inr ⟨_, _, _, [], fun cs => (map_nil_append _).symm⟩
    split
    · split
      · exact Or.inr ⟨_, _, _, [], fun cs => (map_nil_append _).symm⟩
      · exact Or.inl ⟨_, fun cs => rfl⟩
    split
    · exact Or.inr ⟨_, _, _, [], fun cs => (map_nil_append _).symm⟩
    split
    · exact Or.inl ⟨_, fun cs => rfl⟩
    · exact Or.inr ⟨_, _, _, [], fun cs => (map_nil_append _).symm⟩
  | comment => exact Or.inr ⟨_, _, _, [], fun cs => (map_nil_append _).symm⟩
  | header sofar =>
    simp only [scan]
    split
    · exact Or.inr ⟨_, _, _, [_], fun cs => rfl⟩
    · exact Or.inr ⟨_, _, _, [], fun cs => (map_nil_append _).symm⟩
  | key sofar => exact Or.inr ⟨_, _, _, [], fun cs => (map_nil_append _).symm⟩
  | value key sofar =>
    simp only [scan]
    split
    · exact Or.inr ⟨_, _, _, [_], fun cs => rfl⟩
    · exact Or.inr ⟨_, _, _, [], fun cs => (map_nil_append _).symm⟩

theorem exists_of_map_append {r : Except SyntaxError (List Item)} {items' items : List Item}
    (h : r.map (items' ++ ·) = .ok items) : ∃ rest, r = .ok rest ∧ items = items' ++ rest := by
  cases r with
  | error e => cases h
  | ok rest => exact ⟨rest, rfl, (Except.ok.inj h).symm⟩

/-! ## Line ends -/

/-- **What is read up to the end of a line stays read**: what follows is read as a text of its own. -/
theorem scan_append_lineFeed {cs : List Char} {mode : Mode} {line : Nat} {first : Bool} {items : List Item}
    (h : scan mode line first cs = .ok items) :
    ∃ line', ∀ rest, scan mode line first (cs ++ '\n' :: rest) = (scan .between line' true rest).map (items ++ ·) := by
  induction cs generalizing mode line first items with
  | nil =>
    refine ⟨line + 1, fun rest => ?_⟩
    cases mode with
    | between => cases Except.ok.inj h; exact (map_nil_append _).symm
    | comment => cases Except.ok.inj h; exact (map_nil_append _).symm
    | header _ => cases h
    | key _ => cases h
    | value key sofar => cases Except.ok.inj h; rfl
  | cons c cs ih =>
    rcases scan_cons mode line first c with ⟨fault, hc⟩ | ⟨mode', line', first', items', hc⟩
    · rw [hc] at h
      cases h
    · rw [hc] at h
      obtain ⟨rest', hr, rfl⟩ := exists_of_map_append h
      obtain ⟨line'', hrest⟩ := ih hr
      exact ⟨line'', fun rest => by rw [List.cons_append, hc, hrest, map_append_append]⟩

/-! ## Blanks -/

theorem scan_of_blank {bs : List Char} (h : ∀ c ∈ bs, isBlank c = true) (line : Nat) (first : Bool) :
    scan .between line first bs = .ok [] := by
  induction bs generalizing line first with
  | nil => rfl
  | cons c bs ih =>
    simp only [scan, h c List.mem_cons_self, ↓reduceIte]
    exact ih (fun d hd => h d (List.mem_cons_of_mem _ hd)) _ _

/-- Blanks between items count only for where the next character stands. -/
theorem scan_blank_append {bs : List Char} (h : ∀ c ∈ bs, isBlank c = true) (line : Nat) (first : Bool) :
    ∃ line' first', ∀ rest, scan .between line first (bs ++ rest) = scan .between line' first' rest := by
  induction bs generalizing line first with
  | nil => exact ⟨line, first, fun _ => rfl⟩
  | cons c bs ih =>
    obtain ⟨line', first', hrest⟩ := ih (fun d hd => h d (List.mem_cons_of_mem _ hd))
      (if c = '\n' then line + 1 else line) (c = '\n')
    refine ⟨line', first', fun rest => ?_⟩
    simp only [List.cons_append, scan, h c List.mem_cons_self, ↓reduceIte]
    exact hrest rest

theorem exists_trimLeft (s : List Char) : ∃ bs, (∀ c ∈ bs, isBlank c = true) ∧ s = bs ++ trimLeft s :=
  ⟨s.takeWhile isBlank, fun _ hc => List.mem_takeWhile_imp hc, List.takeWhile_append_dropWhile.symm⟩

theorem trim_blank_append {bs : List Char} (h : ∀ c ∈ bs, isBlank c = true) (s : List Char) :
    trim (bs ++ s) = trim s := by
  rw [trim, trimLeft, List.dropWhile_append_of_pos h, trim, trimLeft]

/-! ## Lines that yield something on their own -/

/-- What a line yields. A line is blank, or a comment from its first column on, or a header or an assignment. A carriage
return ends the value of an assignment, and only blanks may follow it. -/
inductive Yields : List Char → List Item → Prop where
  | blank (bs : List Char) (h : ∀ c ∈ bs, isBlank c = true) : Yields bs []
  | comment (mark : Char) (text : List Char) (h : mark = '#' ∨ mark = ';') : Yields (mark :: text) []
  | header (before name after : List Char) (hbefore : ∀ c ∈ before, isBlank c = true) (hname : ']' ∉ name)
      (hafter : ∀ c ∈ after, isBlank c = true) : Yields (before ++ '[' :: (name ++ ']' :: after)) [.header (trim name)]
  | assignment (key value after : List Char) (hne : trimLeft key ≠ [])
      (hkey : ∀ c ∈ (trimLeft key).head?, c ≠ '[' ∧ c ≠ '#' ∧ c ≠ ';') (hequals : '=' ∉ key) (hcolon : ':' ∉ key)
      (hvalue : '\r' ∉ value) (hafter : after = [] ∨ ∃ bs, (∀ c ∈ bs, isBlank c = true) ∧ after = '\r' :: bs) :
      Yields (key ++ '=' :: (value ++ after)) [.assignment (trim key) (trim value)]

/-- The header of a fragment that sets the administrators. -/
theorem yields_configuration : Yields "[Configuration]".toList [.header "Configuration".toList] :=
  .header [] "Configuration".toList [] nofun (by decide +kernel) nofun

/-- The line of a fragment that sets the administrators. -/
theorem yields_adminIdentities {value : List Char} (h : '\r' ∉ value) :
    Yields ("AdminIdentities=".toList ++ value) [.assignment "AdminIdentities".toList (trim value)] := by
  have hhead : (trimLeft "AdminIdentities".toList).head? = some 'A' := by decide +kernel
  have hne : trimLeft "AdminIdentities".toList ≠ [] := fun he => by
    rw [he] at hhead
    cases hhead
  have hkey : ∀ c ∈ (trimLeft "AdminIdentities".toList).head?, c ≠ '[' ∧ c ≠ '#' ∧ c ≠ ';' := by
    intro c hc
    obtain rfl : 'A' = c := Option.some.inj (hhead.symm.trans hc)
    decide
  have hline := Yields.assignment "AdminIdentities".toList value [] hne hkey (by decide +kernel) (by decide +kernel) h
    (Or.inl rfl)
  rwa [List.append_nil] at hline

theorem scan_comment_end {text : List Char} (h : '\n' ∉ text) (line : Nat) (first : Bool) :
    scan .comment line first text = .ok [] := by
  induction text generalizing line first with
  | nil => rfl
  | cons c text ih =>
    obtain ⟨hc, h⟩ := not_mem_cons h
    simp only [scan, hc, ↓reduceIte]
    exact ih h _ _

/-- A value reaches to the end of its line, or to a carriage return with nothing but blanks behind it. -/
theorem scan_value_end {value after : List Char} (h : '\n' ∉ value) (hr : '\r' ∉ value)
    (hafter : after = [] ∨ ∃ bs, (∀ c ∈ bs, isBlank c = true) ∧ after = '\r' :: bs) (key : List Char) (line : Nat)
    (first : Bool) :
    scan (.value key []) line first (value ++ after) = .ok [.assignment (collected key) (trim value)] := by
  obtain ⟨first', hrest⟩ := scan_value_append h hr key [] line first
  rw [hrest]
  rcases hafter with rfl | ⟨bs, hbs, rfl⟩
  · simp [scan, collected]
  · simp only [scan, decide_true, Bool.or_true, ↓reduceIte]
    rw [scan_of_blank hbs]
    simp [Except.map, collected]

/-- A character that is no blank and begins nothing else begins a key. -/
theorem scan_key_begin {c : Char} (hblank : isBlank c = false) (hhash : c ≠ '#') (hsemicolon : c ≠ ';')
    (hbracket : c ≠ '[') (hequals : c ≠ '=') (hcolon : c ≠ ':') (line : Nat) (first : Bool) (cs : List Char) :
    scan .between line first (c :: cs) = scan (.key [c]) line false cs := by
  have hfeed : c ≠ '\n' := by
    rintro rfl
    exact absurd hblank (by decide)
  simp [scan, hblank, hhash, hsemicolon, hbracket, hequals, hcolon, hfeed]

/-- **A line that yields something on its own is read so**, wherever it stands. -/
theorem scan_of_yields {l : List Char} {items : List Item} (h : Yields l items) (hl : '\n' ∉ l) (line : Nat) :
    scan .between line true l = .ok items := by
  cases h with
  | blank bs h => exact scan_of_blank h line true
  | comment mark text h =>
    obtain ⟨-, htext⟩ := not_mem_cons hl
    have hmark : isBlank mark = false := by rcases h with rfl | rfl <;> decide
    have hcomment : (decide (mark = '#') || decide (mark = ';')) = true := by simpa using h
    simp only [scan, hmark, hcomment, ↓reduceIte, Bool.false_eq_true]
    exact scan_comment_end htext _ _
  | header before name after hbefore hname hafter =>
    obtain ⟨line', first', hrest⟩ := scan_blank_append hbefore line true
    have hopen : ∀ cs, scan .between line' first' ('[' :: cs) = scan (.header []) line' false cs := fun _ => rfl
    have hfeed : '\n' ∉ name := fun hc =>
      hl (List.mem_append_right _ (List.mem_cons_of_mem _ (List.mem_append_left _ hc)))
    rw [hrest, hopen, scan_header hfeed hname, scan_of_blank hafter]
    simp [Except.map, collected]
  | assignment key value after hne hkey hequals hcolon hvalue hafter =>
    obtain ⟨bs, hbs, hkeyeq⟩ := exists_trimLeft key
    obtain ⟨c, text, htext⟩ := List.exists_cons_of_ne_nil hne
    obtain ⟨line', first', hrest⟩ := scan_blank_append hbs line true
    have hc : isBlank c = false := head?_trimLeft key c (by rw [htext]; rfl)
    obtain ⟨hbracket, hhash, hsemicolon⟩ := hkey c (by rw [htext]; rfl)
    rw [htext] at hkeyeq
    have hmem : ∀ d ∈ c :: text, d ∈ key := fun d hd => hkeyeq ▸ List.mem_append_right _ hd
    have hopen : ∀ cs, scan .between line' first' (c :: cs) = scan (.key [c]) line' false cs :=
      scan_key_begin hc hhash hsemicolon hbracket (fun he => hequals (he ▸ hmem c List.mem_cons_self))
        (fun he => hcolon (he ▸ hmem c List.mem_cons_self)) line' first'
    have htail : ∀ d ∈ text, d ∈ key := fun d hd => hmem d (List.mem_cons_of_mem _ hd)
    have hkeytrim : trim key = trim (c :: text) := by rw [hkeyeq, trim_blank_append hbs]
    have hfeed : '\n' ∉ value := fun hd =>
      hl (List.mem_append_right _ (List.mem_cons_of_mem _ (List.mem_append_left _ hd)))
    rw [hkeytrim, hkeyeq, List.append_assoc, hrest, List.cons_append, hopen,
      scan_key (fun hd => hl (List.mem_append_left _ (htail _ hd))) (fun hd => hequals (htail _ hd))
        (fun hd => hcolon (htail _ hd)),
      scan_value_end hfeed hvalue hafter]
    simp [collected]

/-- **Lines that each yield something are read one after the other.** -/
theorem scan_lines {ls : List (List Char)} {itemss : List (List Item)} (h : List.Forall₂ Yields ls itemss)
    (hl : ∀ l ∈ ls, '\n' ∉ l) (line : Nat) : scan .between line true (joinWith ['\n'] ls) = .ok itemss.flatten := by
  induction h generalizing line with
  | nil => rfl
  | @cons l items ls itemss hyields hrest ih =>
    have hscan := scan_of_yields hyields (hl l List.mem_cons_self) line
    cases hrest with
    | nil => simpa [joinWith] using hscan
    | @cons l' items' ls itemss _ hrest =>
      obtain ⟨line', hnext⟩ := scan_append_lineFeed hscan
      have ih := ih (fun m hm => hl m (List.mem_cons_of_mem _ hm)) line'
      rw [joinWith, List.append_assoc, List.singleton_append, hnext, ih]
      rfl

end AdminPolicy.KeyFile
