import PhpLint.Code.Keyword
import PhpLint.Text.Case

/-!
Imports at file level. A statement names one item or several, or several below a
common group; an item may give its own kind and an alias.
-/

namespace PhpLint

inductive ImportKind where
  | classLike
  | function
  | const
  deriving DecidableEq, Repr, Inhabited

namespace ImportKind

def name : ImportKind → String
  | .classLike => "class"
  | .function => "function"
  | .const => "const"

/-- The kind that a keyword stands for. -/
def ofKeyword (word : Text) : ImportKind :=
  let word := Text.asciiLower word
  if word = "function".toList then .function
  else if word = "const".toList then .const
  else .classLike

/-- The keywords that give a kind. -/
def keywords : List Text := ["function", "const"].map String.toList

end ImportKind

structure Import where
  line : Nat
  fullName : Text
  asName : Option Text
  kind : ImportKind
  deriving DecidableEq, Repr

namespace Import

def shortName (i : Import) : Text := ((Text.splitAtChar '\\' i.fullName).getLast?).getD []

/-- The name by which code refers to the import. -/
def effectiveName (i : Import) : Text := i.asName.getD i.shortName

/-- All segments but the last. -/
def namespaceName (i : Import) : Text :=
  Text.join ['\\'] (Text.splitAtChar '\\' i.fullName).dropLast

/-- One item of a statement before it is resolved. -/
structure Item where
  kind : Option ImportKind
  name : Text
  asName : Option Text
  deriving DecidableEq, Repr

/-- Reads blanks, the word `as`, blanks and an alias that ends the text. -/
def readAlias? (s : Text) : Option Text := do
  let s ← Code.blanks? s
  let (_, s) ← Code.keyword? "as".toList s
  let s ← Code.blanks? s
  match ← Code.name? s with
  | (word, []) => some word
  | _ => none

/-- Reads a qualified name with an optional alias that together make up a text. -/
def readNamed? (kind : Option ImportKind) (s : Text) : Option Item :=
  match Code.readQualified? Code.isNameStart Code.isNamePart s with
  | none => none
  | some (name, []) => some { kind, name, asName := none }
  | some (name, rest) => (readAlias? rest).map fun word => { kind, name, asName := some word }

/-- Reads an item; a leading keyword gives its kind if a name follows it. -/
def readItem? (s : Text) : Option Item :=
  let keyed := do
    let (word, rest) ← Code.anyKeyword? ImportKind.keywords s
    let rest ← Code.blanks? rest
    readNamed? (some (ImportKind.ofKeyword word)) rest
  match keyed with
  | some item => some item
  | none => readNamed? none s

/-- A statement: the kind for all its items and the text that lists them. -/
structure Statement where
  kind : ImportKind
  body : Text
  deriving DecidableEq, Repr

/-- Reads what stands between the word `use` and the semicolon. A kind keyword
takes one blank; more text, or one more blank, has to follow it. -/
def readBody (s : Text) : Statement :=
  match Code.anyKeyword? ImportKind.keywords s with
  | some (word, c :: rest) =>
    if Text.isBlank c && !rest.isEmpty then ⟨ImportKind.ofKeyword word, Text.trim rest⟩
    else ⟨.classLike, Text.trim s⟩
  | _ => ⟨.classLike, Text.trim s⟩

/-- Reads an import statement at the start of a line, up to its semicolon. -/
def readStatement? (line : Text) : Option Statement := do
  let (_, rest) ← Code.keyword? "use".toList (Text.trimStart line)
  let rest ← Code.blanks? rest
  match Text.cut (· == ';') rest with
  | (body, ';' :: _) => some (readBody body)
  | _ => none

/-- A group whose last closing brace comes before its first opening brace. -/
inductive GroupError where
  | reversedBraces (body : Text)
  deriving DecidableEq, Repr

/-- The text before the last occurrence of a character. -/
def beforeLast? (c : Char) (s : Text) : Option Text :=
  match s.reverse.dropWhile (· != c) with
  | [] => none
  | _ :: rest => some rest.reverse

/-- The group and the items that a statement's text lists. A group that is never
closed lists nothing. -/
def splitGroup (body : Text) : Except GroupError (Text × List Text) :=
  match Text.cut (· == '{') body with
  | (_, []) => .ok ([], (Text.splitAtChar ',' body).map Text.trim)
  | (before, _ :: after) =>
    let group := Text.dropEndWhile (· == '\\') (Text.trim before)
    match beforeLast? '}' after with
    | some inner => .ok (group, (Text.splitAtChar ',' inner).map Text.trim)
    | none => if before.contains '}' then .error (.reversedBraces body) else .ok (group, [])

/-- The import that an item stands for. -/
def ofItem (line : Nat) (kind : ImportKind) (group : Text) (item : Item) : Import :=
  let name := item.name.dropWhile (· == '\\')
  let fullName := if group.isEmpty then name else group ++ '\\' :: name
  { line
    fullName := (Text.trim fullName).dropWhile (· == '\\')
    asName := item.asName
    kind := item.kind.getD kind }

/-- The imports of a statement on a line; items that are no names are skipped. -/
def ofStatement (line : Nat) (s : Statement) : Except GroupError (List Import) := do
  let (group, items) ← splitGroup s.body
  return (items.filterMap readItem?).map (ofItem line s.kind group)

end Import

end PhpLint
