/-!
# Text as UTF-8 bytes

`decode` reads bytes as text or says where they stop being UTF-8: a fault has the index of the first byte that belongs
to no character and the number of bytes that cannot begin one, or no number when the bytes end inside a character.
`decodeLossy` puts U+FFFD in the place of each fault. Text that was encoded is read back (`decode_toUTF8`). A text may
begin with a byte order mark, which says nothing (`dropMark`).
-/

namespace AdminPolicy.Text

/-- The first place where bytes are not UTF-8. -/
structure Utf8Fault where
  /-- The index of the first byte outside the valid characters. -/
  index : Nat
  /-- How many bytes begin no character; `none` when the bytes end inside a character. -/
  size? : Option Nat
  deriving DecidableEq, Repr

def Utf8Fault.message (f : Utf8Fault) : String :=
  match f.size? with
  | some n => s!"invalid utf-8 sequence of {n} bytes from index {f.index}"
  | none => s!"incomplete utf-8 byte sequence from index {f.index}"

/-- What stands at the front of a byte sequence. -/
inductive Utf8Unit where
  | scalar (c : Char) (size : Nat)
  | invalid (size : Nat)
  | incomplete
  deriving DecidableEq, Repr

def isContinuation (b : UInt8) : Bool := 0x80 ≤ b && b ≤ 0xBF

/-- The second bytes that may follow a first byte of three or four: no overlong form, no surrogate, nothing above
U+10FFFF. -/
def isSecond (first second : UInt8) : Bool :=
  if first == 0xE0 then 0xA0 ≤ second && second ≤ 0xBF
  else if first == 0xED then 0x80 ≤ second && second ≤ 0x9F
  else if first == 0xF0 then 0x90 ≤ second && second ≤ 0xBF
  else if first == 0xF4 then 0x80 ≤ second && second ≤ 0x8F
  else isContinuation second

/-- The six payload bits of a continuation byte. -/
def payload (b : UInt8) : Nat := b.toNat % 64

/-- The unit that begins with `first`. -/
def unitOf (first : UInt8) (rest : List UInt8) : Utf8Unit :=
  let lead := first.toNat
  if first < 0x80 then .scalar (Char.ofNat lead) 1
  else if first < 0xC2 || 0xF4 < first then .invalid 1
  else
    match rest with
    | [] => .incomplete
    | b :: rest =>
      if first < 0xE0 then
        if isContinuation b then .scalar (Char.ofNat (lead % 32 * 64 + payload b)) 2 else .invalid 1
      else if !isSecond first b then .invalid 1
      else
        match rest with
        | [] => .incomplete
        | c :: rest =>
          if !isContinuation c then .invalid 2
          else if first < 0xF0 then
            .scalar (Char.ofNat ((lead % 16 * 64 + payload b) * 64 + payload c)) 3
          else
            match rest with
            | [] => .incomplete
            | d :: _ =>
              if !isContinuation d then .invalid 3
              else .scalar (Char.ofNat (((lead % 8 * 64 + payload b) * 64 + payload c) * 64 + payload d)) 4

/-- The units of a byte sequence, at most `fuel` of them; a sequence has no more units than bytes. -/
def unitsWithin : Nat → List UInt8 → List Utf8Unit
  | 0, _ => []
  | _, [] => []
  | fuel + 1, b :: bs =>
    let u := unitOf b bs
    match u with
    | .scalar _ n => u :: unitsWithin fuel (bs.drop (n - 1))
    | .invalid n => u :: unitsWithin fuel (bs.drop (n - 1))
    | .incomplete => [u]

def utf8Units (bytes : ByteArray) : List Utf8Unit :=
  unitsWithin bytes.size bytes.data.toList

/-- The first fault among units that begin at `index`. -/
def firstFault (index : Nat) : List Utf8Unit → Utf8Fault
  | .scalar _ n :: us => firstFault (index + n) us
  | .invalid n :: _ => ⟨index, some n⟩
  | _ => ⟨index, none⟩

/-- The text that the bytes encode, or the first fault. -/
def decode (bytes : ByteArray) : Except Utf8Fault String :=
  match String.fromUTF8? bytes with
  | some s => .ok s
  | none => .error (firstFault 0 (utf8Units bytes))

/-- The text that the bytes encode, with U+FFFD for each fault. -/
def decodeLossy (bytes : ByteArray) : String :=
  match String.fromUTF8? bytes with
  | some s => s
  | none =>
    String.ofList <| (utf8Units bytes).map fun
      | .scalar c _ => c
      | _ => Char.ofNat 0xFFFD

/-- The text without one byte order mark at its front. -/
def dropMark : List Char → List Char
  | c :: cs => if c = Char.ofNat 0xFEFF then cs else c :: cs
  | [] => []

@[simp] theorem decode_toUTF8 (s : String) : decode s.toUTF8 = .ok s := by
  simp [decode, String.fromUTF8?, String.toUTF8, String.fromUTF8, String.isValidUTF8]

end AdminPolicy.Text
