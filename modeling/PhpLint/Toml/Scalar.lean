import PhpLint.Toml.Value

/-!
Scalars of a configuration document: strings, integers, floats, dates and truth
values. Each reader takes a value from the start of a text.
-/

namespace PhpLint.Toml

/-- Spaces and tabs. -/
def isSpace (c : Char) : Bool := c == ' ' || c == '\t'

def skipSpaces (s : Text) : Text := s.dropWhile isSpace

/-- Reads a line end. -/
def newline? : Text → Option Text
  | '\n' :: s => some s
  | '\r' :: '\n' :: s => some s
  | _ => none

/-- Characters that may stand in comments and, quotes and backslashes apart, in
strings. -/
def isPlain (c : Char) : Bool :=
  c == '\t' || (0x20 ≤ c.toNat && c.toNat ≠ 0x7f)

/-- Reads a code point with a fixed number of hexadecimal digits. -/
def codePoint? (digits : Nat) (s : Text) : Option (Char × Text) := do
  let used := s.take digits
  let values ← used.mapM hexDigit?
  let n := values.foldl (fun n d => n * 16 + d) 0
  if h : used.length = digits ∧ n.isValidChar then
    some (Char.ofNatAux n h.2, s.drop digits)
  else none

/-- Reads what follows the backslash of an escape. -/
def escape? : Text → Option (Char × Text)
  | 'b' :: s => some ('\x08', s)
  | 't' :: s => some ('\t', s)
  | 'n' :: s => some ('\n', s)
  | 'f' :: s => some ('\x0c', s)
  | 'r' :: s => some ('\r', s)
  | '"' :: s => some ('"', s)
  | '\\' :: s => some ('\\', s)
  | 'u' :: s => codePoint? 4 s
  | 'U' :: s => codePoint? 8 s
  | _ => none

/-- Reads a string in double quotes after its opening quote. -/
def basicString? : (fuel : Nat) → Text → Option (Text × Text)
  | 0, _ => none
  | fuel + 1, s =>
    match s with
    | '"' :: s => some ([], s)
    | '\\' :: s => do
      let (c, s) ← escape? s
      let (text, s) ← basicString? fuel s
      return (c :: text, s)
    | c :: s =>
      if isPlain c then (basicString? fuel s).map fun (text, s) => (c :: text, s) else none
    | [] => none

/-- Reads a string in single quotes after its opening quote. -/
def literalString? : Text → Option (Text × Text)
  | [] => none
  | '\'' :: s => some ([], s)
  | c :: s => if isPlain c then (literalString? s).map fun (text, s) => (c :: text, s) else none

/-- Skips a line end at the start of a string of several lines. -/
def skipFirstNewline (s : Text) : Text := (newline? s).getD s

/-- Skips the rest of a line that a backslash continues, and the blanks and line
ends after it; the rest of the line has to be blank. -/
def continuation? (s : Text) : Option Text :=
  (newline? (skipSpaces s)).map fun s => s.dropWhile fun c => isSpace c || c == '\n' || c == '\r'

/-- Whether the carriage returns among blanks and line ends belong to line ends. -/
def returnsPaired : Text → Bool
  | '\r' :: '\n' :: s => returnsPaired s
  | '\r' :: _ => false
  | c :: s => if isSpace c || c == '\n' then returnsPaired s else true
  | [] => true

/-- Closes a string of several lines at its quotes: three of them end it, and up
to two more before them belong to it. -/
def closeQuotes? (quote : Char) (s : Text) : Option (Text × Text) :=
  let run := (s.takeWhile (· == quote)).length
  if run < 3 then none
  else
    let extra := min (run - 3) 2
    some (List.replicate extra quote, s.drop (extra + 3))

/-- Reads a string in triple double quotes after its opening. -/
def longBasicString? : (fuel : Nat) → Text → Option (Text × Text)
  | 0, _ => none
  | fuel + 1, s =>
    match closeQuotes? '"' s with
    | some found => some found
    | none =>
      match newline? s with
      | some s => (longBasicString? fuel s).map fun (text, s) => ('\n' :: text, s)
      | none =>
        match s with
        | [] => none
        | '\\' :: s =>
          match continuation? s with
          | some rest =>
            if returnsPaired (skipSpaces s) then longBasicString? fuel rest else none
          | none => do
            let (c, s) ← escape? s
            let (text, s) ← longBasicString? fuel s
            return (c :: text, s)
        | c :: s =>
          if isPlain c then (longBasicString? fuel s).map fun (text, s) => (c :: text, s)
          else none

/-- Reads a string in triple single quotes after its opening. -/
def longLiteralString? : (fuel : Nat) → Text → Option (Text × Text)
  | 0, _ => none
  | fuel + 1, s =>
    match closeQuotes? '\'' s with
    | some found => some found
    | none =>
      match newline? s with
      | some s => (longLiteralString? fuel s).map fun (text, s) => ('\n' :: text, s)
      | none =>
        match s with
        | [] => none
        | c :: s =>
          if isPlain c then (longLiteralString? fuel s).map fun (text, s) => (c :: text, s)
          else none

/-- Reads a string of any kind. -/
def string? (s : Text) : Option (Text × Text) :=
  match s with
  | '"' :: '"' :: '"' :: s => longBasicString? (s.length + 1) (skipFirstNewline s)
  | '"' :: s => basicString? (s.length + 1) s
  | '\'' :: '\'' :: '\'' :: s => longLiteralString? (s.length + 1) (skipFirstNewline s)
  | '\'' :: s => literalString? s
  | _ => none

/-- Reads further digits of a base, with single underscores between digits. -/
def moreDigits? (base : Nat) : Text → Option (List Nat × Text)
  | '_' :: c :: s =>
    match digit? base c with
    | some d => (moreDigits? base s).map fun (ds, s) => (d :: ds, s)
    | none => none
  | ['_'] => none
  | c :: s =>
    match digit? base c with
    | some d => (moreDigits? base s).map fun (ds, s) => (d :: ds, s)
    | none => some ([], c :: s)
  | [] => some ([], [])

/-- Reads digits of a base. -/
def digits? (base : Nat) : Text → Option (List Nat × Text)
  | [] => none
  | c :: s => do
    let d ← digit? base c
    let (ds, s) ← moreDigits? base s
    return (d :: ds, s)

/-- Reads an optional sign. -/
def sign : Text → Bool × Text
  | '+' :: s => (false, s)
  | '-' :: s => (true, s)
  | s => (false, s)

/-- Reads decimal digits without a leading zero. -/
def decimal? (s : Text) : Option (List Nat × Text) :=
  match s with
  | '0' :: s => some ([0], s)
  | s => digits? 10 s

/-- Integers have sixty-four bits. -/
def integerOf? (negative : Bool) (n : Nat) : Option Value :=
  if negative then if n ≤ Nat.pow 2 63 then some (.integer (-n)) else none
  else if n < Nat.pow 2 63 then some (.integer n) else none

/-- Reads an integer. -/
def integer? (s : Text) : Option (Value × Text) :=
  let based (base : Nat) (s : Text) : Option (Value × Text) := do
    let (ds, s) ← digits? base s
    return (← integerOf? false (ofDigits base ds), s)
  match s with
  | '0' :: 'x' :: s => based 16 s
  | '0' :: 'o' :: s => based 8 s
  | '0' :: 'b' :: s => based 2 s
  | _ => do
    let (negative, s) := sign s
    let (ds, s) ← decimal? s
    return (← integerOf? negative (ofDigits 10 ds), s)

/-- Whether a decimal rounds to a finite double: it is below the middle between
the largest one and the next power of two. -/
def isFinite (digits : List Nat) (exponent : Int) : Bool :=
  let n := ofDigits 10 digits
  let size := (Nat.toDigits 10 n).length + exponent
  if n = 0 ∨ size < 300 then true
  else if 310 < size then false
  else
    let bound := Nat.pow 2 1024 - Nat.pow 2 970
    if 0 ≤ exponent then decide (n * Nat.pow 10 exponent.toNat < bound)
    else decide (n < bound * Nat.pow 10 (-exponent).toNat)

/-- Reads an optional fraction. -/
def fraction? : Text → Option (Option (List Nat) × Text)
  | '.' :: s => (digits? 10 s).map fun (ds, s) => (some ds, s)
  | s => some (none, s)

/-- Reads an optional exponent. -/
def exponent? : Text → Option (Option Int × Text)
  | c :: s =>
    if c = 'e' ∨ c = 'E' then do
      let (negative, s) := sign s
      let (ds, s) ← digits? 10 s
      let n : Int := ofDigits 10 ds
      return (some (if negative then -n else n), s)
    else some (none, c :: s)
  | [] => some (none, [])

/-- Reads a float: a fraction or an exponent or both, or one of the two names. -/
def float? (s : Text) : Option (Value × Text) :=
  let (negative, body) := sign s
  match body with
  | 'i' :: 'n' :: 'f' :: s => some (.float, s)
  | 'n' :: 'a' :: 'n' :: s => some (.float, s)
  | _ => do
    let (whole, s) ← decimal? body
    let (fraction, s) ← fraction? s
    let (exponent, s) ← exponent? s
    if fraction.isNone && exponent.isNone then none
    else
      let ds := fraction.getD []
      if negative || isFinite (whole ++ ds) (exponent.getD 0 - ds.length) then some (.float, s)
      else none

/-- Reads a number, a date or a time. -/
def numeric? (s : Text) : Option (Value × Text) :=
  if DateTime.startsDate s || DateTime.startsTime s then
    (DateTime.read? s).map fun (d, s) => (.datetime d, s)
  else
    match float? s with
    | some found => some found
    | none => integer? s

/-- Reads a scalar. -/
def scalar? (s : Text) : Option (Value × Text) :=
  match s with
  | [] => none
  | 't' :: 'r' :: 'u' :: 'e' :: s => some (.boolean true, s)
  | 'f' :: 'a' :: 'l' :: 's' :: 'e' :: s => some (.boolean false, s)
  | c :: _ =>
    if c = '"' ∨ c = '\'' then (string? s).map fun (text, s) => (.string text, s)
    else numeric? s

end PhpLint.Toml
