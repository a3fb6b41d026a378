import PhpLint.Toml.Scalar

/-!
Configuration documents: lines of keys and values below headers that name tables.
A document that breaks a rule has no value at all.
-/

namespace PhpLint.Toml

/-- How deep arrays and inline tables nest, and how many parts a key has, at most. -/
def maxDepth : Nat := 80

/-- Skips a comment up to the end of its line. -/
def skipComment (s : Text) : Text :=
  match s with
  | '#' :: s => s.dropWhile isPlain
  | s => s

/-- Skips spaces, comments and line ends; a comment needs a line end. -/
def skipLines : (fuel : Nat) → Text → Text
  | 0, s => s
  | fuel + 1, s =>
    let s := skipSpaces s
    match newline? (skipComment s) with
    | some rest => skipLines fuel rest
    | none => s

/-- Reads the rest of a line, which holds spaces and a comment at most. -/
def endOfLine? (s : Text) : Option Text :=
  match skipComment (skipSpaces s) with
  | [] => some []
  | s => newline? s

def isBareKeyPart (c : Char) : Bool := c.isAlphanum || c == '_' || c == '-'

/-- Reads one part of a key. -/
def simpleKey? (s : Text) : Option (Text × Text) :=
  match s with
  | '"' :: s => basicString? (s.length + 1) s
  | '\'' :: s => literalString? s
  | _ =>
    match s.span isBareKeyPart with
    | ([], _) => none
    | (key, rest) => some (key, rest)

/-- Reads the parts of a key with dots. -/
def keyParts? : (fuel : Nat) → Text → Option (List Text × Text)
  | 0, _ => none
  | fuel + 1, s => do
    let (key, s) ← simpleKey? (skipSpaces s)
    match skipSpaces s with
    | '.' :: s =>
      let (more, s) ← keyParts? fuel s
      return (key :: more, s)
    | s => return ([key], s)

/-- Reads a key as the path to its table and its last part. -/
def key? (s : Text) : Option ((List Text × Text) × Text) := do
  let (parts, s) ← keyParts? (maxDepth - 1) s
  let last ← parts.getLast?
  return ((parts.dropLast, last), s)

/-- Reads the equals sign after a key and the spaces around it. -/
def equals? (s : Text) : Option Text :=
  (Text.strip? ['='] (skipSpaces s)).map skipSpaces

mutual

/-- Reads a value inside `depth` arrays and inline tables. -/
def value? (fuel depth : Nat) (s : Text) : Option (Value × Text) :=
  match fuel with
  | 0 => none
  | fuel + 1 =>
    match s with
    | '[' :: s =>
      if maxDepth ≤ depth + 1 then none
      else (items? fuel (depth + 1) s).map fun (items, s) => (.array items, s)
    | '{' :: s =>
      if maxDepth ≤ depth + 1 then none
      else
        match skipSpaces s with
        | '}' :: s => some (.table [], s)
        | s => (pairs? fuel (depth + 1) [] s).map fun (entries, s) =>
          (.table (freezeEntries entries), s)
    | _ => scalar? s

/-- Reads the items of an array up to its closing bracket; a comma may follow the
last one. -/
def items? (fuel depth : Nat) (s : Text) : Option (List Value × Text) :=
  match fuel with
  | 0 => none
  | fuel + 1 =>
    match skipLines s.length s with
    | ']' :: s => some ([], s)
    | s => do
      let (item, s) ← value? fuel depth s
      match skipLines s.length s with
      | ',' :: s =>
        let (items, s) ← items? fuel depth s
        return (item :: items, s)
      | ']' :: s => return ([item], s)
      | _ => none

/-- Reads the pairs of an inline table up to its closing brace. -/
def pairs? (fuel depth : Nat) (entries : Entries) (s : Text) : Option (Entries × Text) :=
  match fuel with
  | 0 => none
  | fuel + 1 => do
    let ((path, key), s) ← key? s
    let s ← equals? s
    let (v, s) ← value? fuel depth s
    let entries ← entries.write path key v
    match skipSpaces s with
    | ',' :: s => pairs? fuel depth entries s
    | '}' :: s => return (entries, s)
    | _ => none

end

/-- A document while it is read: all tables, and the path of the current one. -/
structure Reading where
  root : Entries := []
  current : List Text := []

namespace Reading

/-- Writes a value into the current table. -/
def write (r : Reading) (path : List Text) (key : Text) (v : Value) : Option Reading :=
  (Entries.descend false (fun _ inner => Entries.write path key v inner) r.current false
    r.root).map fun root => { r with root }

/-- Reads a header, from its opening bracket to the end of its line. -/
def header? (r : Reading) (s : Text) : Option (Reading × Text) :=
  match s with
  | '[' :: '[' :: s => do
    let ((path, key), s) ← key? s
    let s ← endOfLine? (← Text.strip? [']', ']'] s)
    let root ← r.root.openElement path key
    return (⟨root, path ++ [key]⟩, s)
  | '[' :: s => do
    let ((path, key), s) ← key? s
    let s ← endOfLine? (← Text.strip? [']'] s)
    let root ← r.root.openTable path key
    return (⟨root, path ++ [key]⟩, s)
  | _ => none

/-- Reads a key and its value to the end of the line. -/
def pair? (r : Reading) (s : Text) : Option (Reading × Text) := do
  let ((path, key), s) ← key? s
  let s ← equals? s
  let (v, s) ← value? (2 * s.length + 2) 0 s
  let s ← endOfLine? s
  return (← r.write path key v, s)

/-- Reads the lines of a document. -/
def lines? : (fuel : Nat) → Reading → Text → Option Reading
  | 0, _, _ => none
  | fuel + 1, r, s =>
    match skipSpaces s with
    | [] => some r
    | '[' :: s => do
      let (r, s) ← r.header? ('[' :: s)
      lines? fuel r s
    | c :: s =>
      if c = '#' ∨ c = '\n' ∨ c = '\r' then
        match endOfLine? (c :: s) with
        | some s => lines? fuel r s
        | none => none
      else do
        let (r, s) ← r.pair? (c :: s)
        lines? fuel r s

end Reading

/-- Reads a document; a byte order mark at its start is skipped. -/
def parse? (s : Text) : Option (List (Text × Value)) :=
  let s := (Text.strip? ['\ufeff'] s).getD s
  (Reading.lines? (s.length + 1) {} s).map fun r => freezeEntries r.root

end PhpLint.Toml
