import AdminPolicy.Text.Reader

/-!
# Dates and times of TOML documents

A date, a time, or both with or without an offset. `datetime?` takes only those that a calendar and a clock have, and
`Datetime.ofText?` reads a text of its own a little more freely; `Datetime.text` writes them in one way, whatever the
letters that parted them.
-/

namespace AdminPolicy.Toml

open Text

structure Date where
  year : Nat
  month : Nat
  day : Nat
  deriving DecidableEq, Repr

/-- A time of day, to the nanosecond. -/
structure Time where
  hour : Nat
  minute : Nat
  second : Nat
  nanosecond : Nat
  deriving DecidableEq, Repr

/-- How far a time is from that of the zero meridian. -/
inductive Offset where
  | zulu
  | minutes (m : Int)
  deriving DecidableEq, Repr

/-- A date, a time, or both. -/
structure Datetime where
  date? : Option Date
  time? : Option Time
  offset? : Option Offset
  deriving DecidableEq, Repr

/-! ## Calendar -/

def isLeapYear (year : Nat) : Bool := year % 4 = 0 && (year % 100 ≠ 0 || year % 400 = 0)

def daysIn (year month : Nat) : Nat :=
  if month = 2 then if isLeapYear year then 29 else 28
  else if month = 4 || month = 6 || month = 9 || month = 11 then 30
  else 31

def Date.isValid (d : Date) : Bool := 1 ≤ d.month && d.month ≤ 12 && 1 ≤ d.day && d.day ≤ daysIn d.year d.month

/-- Whether a clock that counts the hours up to `lastHour` shows the time; a minute may have a leap second. -/
def Time.isValid (lastHour : Nat) (t : Time) : Bool := t.hour ≤ lastHour && t.minute ≤ 59 && t.second ≤ 60

/-! ## Reading -/

/-- A number of exactly so many digits. -/
def fixed? (digits : Nat) : Reader Nat := fun cs =>
  let spelt := cs.take digits
  if spelt.length = digits && spelt.all Char.isDigit then some (numberOf 10 spelt, cs.drop digits) else none

/-- A number of two digits behind a mark. -/
def twoBehind? (mark : Char) : Reader Nat
  | c :: cs => if c = mark then fixed? 2 cs else none
  | [] => none

def date? : Reader Date := fun cs => do
  let (year, rest) ← fixed? 4 cs
  let (month, rest) ← twoBehind? '-' rest
  let (day, rest) ← twoBehind? '-' rest
  let d : Date := ⟨year, month, day⟩
  if d.isValid then some (d, rest) else none

/-- The nanoseconds that the digits behind a point mean; those behind the ninth do not count. -/
def nanosecondsOf (digits : List Char) : Nat :=
  let digits := digits.take 9
  numberOf 10 digits * Nat.pow 10 (9 - digits.length)

def time? (lastHour : Nat) : Reader Time := fun cs => do
  let (hour, rest) ← fixed? 2 cs
  let (minute, rest) ← twoBehind? ':' rest
  let (second, rest) ← twoBehind? ':' rest
  let (digits, rest) :=
    match rest with
    | '.' :: fraction => span Char.isDigit fraction
    | _ => (['0'], rest)
  let t : Time := ⟨hour, minute, second, nanosecondsOf digits⟩
  if t.isValid lastHour && digits ≠ [] then some (t, rest) else none

/-- An offset, if its hours and minutes are accepted. -/
def offset? (accepts : Nat → Nat → Bool) : Reader Offset
  | c :: cs =>
    if c = 'Z' || c = 'z' then some (.zulu, cs)
    else if c = '+' || c = '-' then do
      let (hours, rest) ← fixed? 2 cs
      let (minutes, rest) ← twoBehind? ':' rest
      if accepts hours minutes then
        let m : Int := hours * 60 + minutes
        some (.minutes (if c = '-' then -m else m), rest)
      else none
    else none
  | [] => none

def beginsOffset (cs : List Char) : Bool := (cs.head?).any fun c => ['Z', 'z', '+', '-'].contains c

/-- Whether a character parts a date from a time. -/
def partsDateAndTime (c : Char) : Bool := c = 'T' || c = 't' || c = ' '

def beginsTime : List Char → Bool
  | a :: b :: ':' :: _ => a.isDigit && b.isDigit
  | _ => false

def beginsDate : List Char → Bool
  | a :: b :: c :: d :: '-' :: _ => a.isDigit && b.isDigit && c.isDigit && d.isDigit
  | _ => false

/-- A date with a time, if one follows, or a time. -/
def datetime? : Reader Datetime := fun cs =>
  if beginsDate cs then do
    let (d, rest) ← date? cs
    match rest with
    | c :: next =>
      if partsDateAndTime c && beginsTime next then
        let (t, rest) ← time? 23 next
        if beginsOffset rest then
          let (o, rest) ← offset? (fun hours minutes => hours ≤ 23 && minutes ≤ 59) rest
          pure (⟨some d, some t, some o⟩, rest)
        else pure (⟨some d, some t, none⟩, rest)
      else pure (⟨some d, none, none⟩, rest)
    | [] => pure (⟨some d, none, none⟩, rest)
  else (time? 23 cs).map fun (t, rest) => (⟨none, some t, none⟩, rest)

/-- The time and perhaps the offset that a text is. -/
def timeAndOffset? (cs : List Char) : Option (Time × Option Offset) := do
  let (t, rest) ← time? 24 cs
  if rest = [] then some (t, none)
  else
    match offset? (fun hours minutes => hours * 60 + minutes ≤ 24 * 60) rest with
    | some (o, []) => some (t, some o)
    | _ => none

/-- The date, the time, or both that a text is. A day may have an hour 24, and the minutes of an offset can be any as
long as it is no more than a day. -/
def Datetime.ofText? (s : String) : Option Datetime :=
  let cs := s.toList
  if cs[2]? = some ':' then
    (timeAndOffset? cs).bind fun (t, o?) => if o? = none then some ⟨none, some t, none⟩ else none
  else
    (Toml.date? cs).bind fun (d, rest) =>
      match rest with
      | [] => some ⟨some d, none, none⟩
      | c :: rest =>
        if partsDateAndTime c then (timeAndOffset? rest).map fun (t, o?) => ⟨some d, some t, o?⟩ else none

/-! ## Writing -/

/-- A number in so many digits at least. -/
def padded (digits n : Nat) : List Char :=
  let spelt := Nat.toDigits 10 n
  List.replicate (digits - spelt.length) '0' ++ spelt

def Date.chars (d : Date) : List Char := padded 4 d.year ++ '-' :: padded 2 d.month ++ '-' :: padded 2 d.day

/-- Digits without the zeros at their end. -/
def withoutZeros (digits : List Char) : List Char := (digits.reverse.dropWhile (· = '0')).reverse

def Time.chars (t : Time) : List Char :=
  padded 2 t.hour ++ ':' :: padded 2 t.minute ++ ':' :: padded 2 t.second ++
    if t.nanosecond = 0 then [] else '.' :: withoutZeros (padded 9 t.nanosecond)

def Offset.chars : Offset → List Char
  | zulu => ['Z']
  | minutes m => (if m < 0 then '-' else '+') :: padded 2 (m.natAbs / 60) ++ ':' :: padded 2 (m.natAbs % 60)

def Datetime.text (d : Datetime) : String :=
  let parts : List (List Char) := (d.date?.map Date.chars).toList ++ (d.time?.map Time.chars).toList
  String.ofList (['T'].intercalate parts ++ (d.offset?.map Offset.chars).getD [])

end AdminPolicy.Toml
