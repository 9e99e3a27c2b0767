/-!
# Blank characters

The characters with the Unicode property `White_Space`, and trimming by that class. A trimmed text neither begins nor
ends with a blank (`head?_trimLeft`, `getLast?_trim`).
-/

namespace AdminPolicy.Text

/-- The characters with the Unicode property `White_Space`. -/
def isBlank (c : Char) : Bool :=
  let n := c.toNat
  (9 ≤ n && n ≤ 13) || n == 0x20 || n == 0x85 || n == 0xA0 || n == 0x1680 || (0x2000 ≤ n && n ≤ 0x200A) ||
    n == 0x2028 || n == 0x2029 || n == 0x202F || n == 0x205F || n == 0x3000

def trimLeft (s : List Char) : List Char := s.dropWhile isBlank

def trimRight (s : List Char) : List Char := (s.reverse.dropWhile isBlank).reverse

/-- The text without the blanks at both ends. -/
def trim (s : List Char) : List Char := trimRight (trimLeft s)

theorem head?_trimLeft (s : List Char) : ∀ c ∈ (trimLeft s).head?, isBlank c = false := by
  intro c hc
  have h := List.head?_dropWhile_not isBlank s
  unfold trimLeft at hc
  rw [Option.mem_def.mp hc] at h
  simpa using h

theorem getLast?_trim (s : List Char) : ∀ c ∈ (trim s).getLast?, isBlank c = false := by
  intro c hc
  unfold trim trimRight at hc
  rw [List.getLast?_reverse] at hc
  have h := List.head?_dropWhile_not isBlank (trimLeft s).reverse
  rw [Option.mem_def.mp hc] at h
  simpa using h

end AdminPolicy.Text
