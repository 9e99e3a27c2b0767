import AdminPolicy.Text.Utf8
import Mathlib.Data.List.Lex
import Mathlib.Tactic.SplitIfs

/-!
# The order of bytes

Texts are ordered by their characters, which is the order of their UTF-8 bytes (`bytesLE_of_le`). Of two characters, the
first byte in which their encodings differ is the smaller one in the encoding of the smaller character, and neither
encoding begins with the other (`lex_utf8EncodeChar`).
-/

namespace AdminPolicy.Text

/-- The UTF-8 bytes of a text, as numbers. -/
def bytes (s : String) : List Nat := s.toUTF8.data.toList.map UInt8.toNat

/-- Texts in the order of their bytes: the first difference decides, and a beginning comes before the whole. -/
def BytesLE (a b : String) : Prop := a = b ∨ List.Lex (fun m n => m < n) (bytes a) (bytes b)

theorem bytes_eq_flatMap (s : String) :
    bytes s = s.toList.flatMap fun c => (String.utf8EncodeChar c).map UInt8.toNat := by
  rw [bytes, String.toUTF8_eq_toByteArray, ← String.utf8Encode_toList, List.utf8Encode, List.toList_data_toByteArray,
    List.map_flatMap]

theorem toNat_val_lt (c : Char) : c.val.toNat < 0x110000 := by
  have hvalid : c.val.toNat.isValidChar := c.valid
  unfold Nat.isValidChar at hvalid
  omega

/-- The encoding of a smaller character comes first, whatever follows the two. -/
theorem lex_utf8EncodeChar {c d : Char} (h : c < d) (x y : List Nat) :
    List.Lex (fun m n => m < n) ((String.utf8EncodeChar c).map UInt8.toNat ++ x)
      ((String.utf8EncodeChar d).map UInt8.toNat ++ y) := by
  have hlt : c.val.toNat < d.val.toNat := h
  have hd := toNat_val_lt d
  unfold String.utf8EncodeChar
  generalize c.val.toNat = v at hlt ⊢
  generalize d.val.toNat = w at hlt hd ⊢
  dsimp only
  -- one case for each two sizes; where the sizes agree, the digits to the base 64 are compared one by one
  split_ifs
  all_goals
    simp only [List.map_cons, List.cons_append, List.cons_lex_cons_iff, UInt8.toNat_ofNat']
    simp (disch := omega) only [Nat.mod_eq_of_lt]
    omega

/-- **Texts are ordered as their bytes are.** -/
theorem bytesLE_of_le {a b : String} (h : a ≤ b) : BytesLE a b := by
  by_cases hab : a = b
  · exact Or.inl hab
  refine Or.inr ?_
  have hlex : List.Lex (fun c d => c < d) a.toList b.toList := Std.lt_of_le_of_ne h hab
  rw [bytes_eq_flatMap, bytes_eq_flatMap]
  generalize a.toList = cs at hlex
  generalize b.toList = ds at hlex
  induction hlex with
  | @nil c cs =>
    obtain ⟨m, ms, hm⟩ := List.exists_cons_of_ne_nil (String.utf8EncodeChar_ne_nil (c := c))
    simp [hm]
  | cons _ ih => exact List.Lex.append_left _ ih _
  | rel hcd => exact lex_utf8EncodeChar hcd _ _

end AdminPolicy.Text
