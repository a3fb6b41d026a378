import PhpLint.Toml.Digits

/-!
Dates and times of day. A document spells them in several ways; `DateTime.render`
gives the one text that each of them has.
-/

namespace PhpLint.Toml

/-- A day of the calendar. -/
structure Date where
  year : Nat
  month : Nat
  day : Nat
  deriving DecidableEq, Repr

/-- A time of day. -/
structure Time where
  hour : Nat
  minute : Nat
  second : Nat
  nanosecond : Nat
  deriving DecidableEq, Repr

/-- How far a clock is from universal time. A clock that shows universal time itself
is not the same as one that is no minutes away from it. -/
inductive Offset where
  | universal
  | minutes (n : Int)
  deriving DecidableEq, Repr

structure DateTime where
  date : Option Date := none
  time : Option Time := none
  offset : Option Offset := none
  deriving DecidableEq, Repr, Inhabited

def daysInMonth (year month : Nat) : Nat :=
  if month = 2 then
    if year % 4 = 0 ∧ (year % 100 ≠ 0 ∨ year % 400 = 0) then 29 else 28
  else if month = 4 ∨ month = 6 ∨ month = 9 ∨ month = 11 then 30
  else 31

/-- Reads a date. -/
def Date.read? (s : Text) : Option (Date × Text) := do
  let (year, s) ← fixed? 4 0 9999 s
  let s ← Text.strip? ['-'] s
  let (month, s) ← fixed? 2 1 12 s
  let s ← Text.strip? ['-'] s
  let (day, s) ← fixed? 2 1 (daysInMonth year month) s
  return (⟨year, month, day⟩, s)

def Date.render (d : Date) : Text :=
  padded 4 d.year ++ '-' :: padded 2 d.month ++ '-' :: padded 2 d.day

/-- The places of a fraction of a second that count. -/
def fractionPlaces : Nat := 9

/-- Reads an optional fraction of a second; further places are cut off. -/
def nanosecond? : Text → Option (Nat × Text)
  | '.' :: s =>
    match s.span Char.isDigit with
    | ([], _) => none
    | (digits, rest) => do
      let ds ← (digits.take fractionPlaces).mapM (digit? 10)
      return (ofDigits 10 (ds ++ List.replicate (fractionPlaces - ds.length) 0), rest)
  | s => some (0, s)

/-- Reads a time of day up to a last hour. There may be a leap second. -/
def Time.read? (lastHour : Nat) (s : Text) : Option (Time × Text) := do
  let (hour, s) ← fixed? 2 0 lastHour s
  let s ← Text.strip? [':'] s
  let (minute, s) ← fixed? 2 0 59 s
  let s ← Text.strip? [':'] s
  let (second, s) ← fixed? 2 0 60 s
  let (nanosecond, s) ← nanosecond? s
  return (⟨hour, minute, second, nanosecond⟩, s)

/-- A fraction has no zeros at its end and is left out if there is none. -/
def Time.render (t : Time) : Text :=
  let fraction :=
    if t.nanosecond = 0 then []
    else '.' :: Text.dropEndWhile (· == '0') (padded fractionPlaces t.nanosecond)
  padded 2 t.hour ++ ':' :: padded 2 t.minute ++ ':' :: padded 2 t.second ++ fraction

/-- Reads an offset with hours and minutes up to the given ones. -/
def Offset.read? (lastHour lastMinute : Nat) (s : Text) : Option (Offset × Text) :=
  match s with
  | 'Z' :: s => some (.universal, s)
  | 'z' :: s => some (.universal, s)
  | c :: s =>
    if c = '+' ∨ c = '-' then do
      let (hours, s) ← fixed? 2 0 lastHour s
      let s ← Text.strip? [':'] s
      let (rest, s) ← fixed? 2 0 lastMinute s
      let n : Int := hours * 60 + rest
      return (.minutes (if c = '-' then -n else n), s)
    else none
  | [] => none

def Offset.render : Offset → Text
  | .universal => ['Z']
  | .minutes n =>
    (if n < 0 then '-' else '+') :: padded 2 (n.natAbs / 60) ++ ':' :: padded 2 (n.natAbs % 60)

namespace DateTime

/-- The text of a date, a time, or both with a `T` between them. -/
def render (d : DateTime) : Text :=
  let date := (d.date.map Date.render).getD []
  let time := (d.time.map Time.render).getD []
  let mark := if d.date.isSome && d.time.isSome then ['T'] else []
  date ++ mark ++ time ++ (d.offset.map Offset.render).getD []

/-- Whether a time starts here: two digits and a colon. -/
def startsTime (s : Text) : Bool :=
  match s with
  | a :: b :: ':' :: _ => a.isDigit && b.isDigit
  | _ => false

/-- Whether a date starts here: four digits and a hyphen. -/
def startsDate (s : Text) : Bool :=
  match s with
  | a :: b :: c :: d :: '-' :: _ => a.isDigit && b.isDigit && c.isDigit && d.isDigit
  | _ => false

/-- What may stand between a date and a time. -/
def isDivider (c : Char) : Bool := c == 'T' || c == 't' || c == ' '

/-- Reads a date, a time, or both with an optional offset from the start of a text. -/
def read? (s : Text) : Option (DateTime × Text) :=
  if startsDate s then do
    let (date, s) ← Date.read? s
    match s with
    | c :: rest =>
      if isDivider c && startsTime rest then do
        let (time, s) ← Time.read? 23 rest
        match Offset.read? 23 59 s with
        | some (offset, s) => return (⟨some date, some time, some offset⟩, s)
        | none => return (⟨some date, some time, none⟩, s)
      else some (⟨some date, none, none⟩, c :: rest)
    | [] => some (⟨some date, none, none⟩, [])
  else do
    let (time, s) ← Time.read? 23 s
    return (⟨none, some time, none⟩, s)

/-- Reads an optional offset up to a day, to the end of a text. -/
def offsetText? (s : Text) : Option (Option Offset) :=
  match s with
  | [] => some none
  | _ =>
    match Offset.read? 99 99 s with
    | some (.minutes n, []) => if n.natAbs ≤ 24 * 60 then some (some (.minutes n)) else none
    | some (offset, []) => some (some offset)
    | _ => none

/-- Reads a text that is a date or a time as a whole. Here a day may end with its hour
twenty-four, and a date may have an offset without a time. -/
def ofText? (s : Text) : Option DateTime :=
  if s[2]? == some ':' then
    match Time.read? 24 s with
    | some (time, []) => some ⟨none, some time, none⟩
    | _ => none
  else do
    let (date, s) ← Date.read? s
    match s with
    | c :: rest =>
      if isDivider c then do
        let (time, s) ← Time.read? 24 rest
        return ⟨some date, some time, ← offsetText? s⟩
      else return ⟨some date, none, ← offsetText? s⟩
    | [] => return ⟨some date, none, none⟩

end DateTime

end PhpLint.Toml
