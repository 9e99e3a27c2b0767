/-!
# Cutting and joining text

`splitOn c s` cuts `s` at every `c` and always has at least one piece; `joinWith` puts a separator between pieces and
undoes the cut (`joinWith_splitOn`). `lines` is the reading of a text as lines: a line ends with a line feed, before
which one carriage return belongs to the end of the line, and an empty last piece is no line.
-/

namespace AdminPolicy.Text

/-- The pieces between the occurrences of `sep`. -/
def splitOn (sep : Char) : List Char → List (List Char)
  | [] => [[]]
  | c :: cs =>
    if c = sep then [] :: splitOn sep cs
    else
      match splitOn sep cs with
      | [] => [[c]]
      | p :: ps => (c :: p) :: ps

/-- The pieces with `sep` between neighbours. -/
def joinWith (sep : List Char) : List (List Char) → List Char
  | [] => []
  | [p] => p
  | p :: q :: ps => p ++ sep ++ joinWith sep (q :: ps)

/-- A text with one trailing carriage return less, if it has one. -/
def stripReturn (s : List Char) : List Char :=
  if s.getLast? = some '\r' then s.dropLast else s

/-- The lines that the pieces between line feeds stand for: the last piece was not ended by a line feed. -/
def linesOfPieces : List (List Char) → List (List Char)
  | [] => []
  | [last] => if last = [] then [] else [last]
  | p :: q :: ps => stripReturn p :: linesOfPieces (q :: ps)

def lines (s : List Char) : List (List Char) := linesOfPieces (splitOn '\n' s)

def joinStrings (sep : String) (pieces : List String) : String :=
  String.ofList (joinWith sep.toList (pieces.map String.toList))

theorem splitOn_ne_nil (sep : Char) (s : List Char) : splitOn sep s ≠ [] := by
  cases s with
  | nil => simp [splitOn]
  | cons c cs =>
    unfold splitOn
    split
    · simp
    · split <;> simp

/-- Joining undoes a cut. -/
theorem joinWith_splitOn (sep : Char) (s : List Char) : joinWith [sep] (splitOn sep s) = s := by
  induction s with
  | nil => rfl
  | cons c cs ih =>
    unfold splitOn
    cases h : splitOn sep cs with
    | nil => exact absurd h (splitOn_ne_nil sep cs)
    | cons p ps =>
      rw [h] at ih
      by_cases hc : c = sep
      · simp [hc, joinWith, ih]
      · cases ps with
        | nil => simpa [hc, joinWith] using ih
        | cons q qs => simpa [hc, joinWith] using ih

/-- No piece of a cut holds the separator. -/
theorem not_mem_of_mem_splitOn {sep : Char} {s p : List Char} (h : p ∈ splitOn sep s) : sep ∉ p := by
  induction s generalizing p with
  | nil => simp [splitOn] at h; simp [h]
  | cons c cs ih =>
    unfold splitOn at h
    by_cases hc : c = sep
    · simp only [hc, ↓reduceIte, List.mem_cons] at h
      rcases h with rfl | h
      · simp
      · exact ih h
    · cases hs : splitOn sep cs with
      | nil => exact absurd hs (splitOn_ne_nil sep cs)
      | cons q qs =>
        rw [hs] at ih
        simp only [hc, ↓reduceIte, hs, List.mem_cons] at h
        rcases h with rfl | h
        · simp only [List.mem_cons, not_or]
          exact ⟨fun e => hc e.symm, ih List.mem_cons_self⟩
        · exact ih (List.mem_cons_of_mem _ h)

theorem splitOn_of_not_mem {sep : Char} {s : List Char} (h : sep ∉ s) : splitOn sep s = [s] := by
  induction s with
  | nil => rfl
  | cons c cs ih =>
    have hc : c ≠ sep := fun e => h (by simp [e])
    have hcs : sep ∉ cs := fun m => h (List.mem_cons_of_mem _ m)
    simp [splitOn, hc, ih hcs]

/-- The cut of a text that begins with a piece and a separator. -/
theorem splitOn_append_cons {sep : Char} {p : List Char} (h : sep ∉ p) (s : List Char) :
    splitOn sep (p ++ sep :: s) = p :: splitOn sep s := by
  induction p with
  | nil => simp [splitOn]
  | cons c cs ih =>
    have hc : c ≠ sep := fun e => h (by simp [e])
    have hcs : sep ∉ cs := fun m => h (List.mem_cons_of_mem _ m)
    simp [splitOn, hc, ih hcs]

/-- A cut undoes joining pieces that do not hold the separator. -/
theorem splitOn_joinWith {sep : Char} : ∀ {ps : List (List Char)}, ps ≠ [] → (∀ p ∈ ps, sep ∉ p) →
    splitOn sep (joinWith [sep] ps) = ps
  | [], h, _ => absurd rfl h
  | [p], _, h => splitOn_of_not_mem (h p (by simp))
  | p :: q :: ps, _, h => by
    have ih := @splitOn_joinWith sep (q :: ps) (by simp) (fun r hr => h r (List.mem_cons_of_mem _ hr))
    simp only [joinWith, List.append_assoc, List.singleton_append]
    rw [splitOn_append_cons (h p (by simp)), ih]

end AdminPolicy.Text
