import AdminPolicy.Text.Unseen

/-!
# Quoted text

Text between double quotes as it is shown in messages. What cannot be seen is written as an escape: ASCII controls, and
the characters beyond ASCII that leave no mark of their own. A character without an escape stands for itself.
-/

namespace AdminPolicy.Text

/-- Whether a character stands for itself in a message. -/
def isVisible (c : Char) : Bool :=
  0x20 ≤ c.toNat && c.toNat ≠ 0x7F && c ≠ '"' && c ≠ '\\' && !isUnseen c

/-- The escape of a character by its number. -/
def numberEscape (c : Char) : List Char := '\\' :: 'u' :: '\x7b' :: (Nat.toDigits 16 c.toNat ++ ['\x7d'])

/-- A character as it is shown between quotes. -/
def shown (c : Char) : List Char :=
  if isVisible c then [c]
  else
    match c with
    | '\x00' => ['\\', '0']
    | '\t' => ['\\', 't']
    | '\r' => ['\\', 'r']
    | '\n' => ['\\', 'n']
    | '\\' => ['\\', '\\']
    | '"' => ['\\', '"']
    | c => numberEscape c

/-- Text between quotes, as it is shown in messages. -/
def quoted (s : String) : String := String.ofList ('"' :: s.toList.flatMap shown ++ ['"'])

end AdminPolicy.Text
