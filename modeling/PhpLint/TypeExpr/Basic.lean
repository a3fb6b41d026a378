import PhpLint.Code.Bracket
import PhpLint.Text.Case

/-!
Type expressions as doc tags and signatures write them: unions whose members are
brought to one spelling. Legacy aliases become their modern names, built-in names
lose their case, array and variadic suffixes fall away.
-/

namespace PhpLint

structure TypeExpr where
  /-- The type as written, without surrounding blanks. -/
  raw : Text
  /-- The distinct members of the union, in order of first appearance. -/
  members : List Text
  nullable : Bool
  deriving DecidableEq, Repr, Inhabited

namespace TypeExpr

/-- The names that are types of the language itself. -/
def builtinNames : List Text :=
  ["array", "bool", "callable", "false", "float", "int", "iterable", "mixed", "never", "null",
    "object", "resource", "self", "static", "string", "true", "void", "list", "parent"].map
    String.toList

/-- Whether a character starts the parameters of a generic, shaped or callable type. -/
def opensParameters (c : Char) : Bool := c == '<' || c == '{' || c == '('

/-- A member without its type parameters. -/
def base (member : Text) : Text := (Text.cut opensParameters member).1

/-- The modern name of a legacy alias, for a lower-case name. -/
def modernName (lower : Text) : Text :=
  if lower = "boolean".toList then "bool".toList
  else if lower = "integer".toList then "int".toList
  else if lower = "double".toList ∨ lower = "real".toList then "float".toList
  else lower

/-- Brings a member to its one spelling. A name that is neither an alias nor
built in stays as it is; type parameters always do. -/
def normalizeMember (member : Text) : Text :=
  let (base, rest) := Text.cut opensParameters member
  let name := modernName (Text.asciiLower base)
  if builtinNames.contains name then name ++ rest else member

/-- Whether a name denotes a type of the language itself. -/
def isBuiltin (name : Text) : Bool :=
  builtinNames.contains (base (Text.asciiLower (normalizeMember name)))

/-- Drops array brackets and dots from a reversed member, and the blanks after
each of them. -/
def dropSuffixesReversed (blanks : Bool) : Text → Text
  | [] => []
  | ']' :: '[' :: s => dropSuffixesReversed true s
  | '.' :: '.' :: '.' :: s => dropSuffixesReversed true s
  | c :: s => if blanks && Text.isBlank c then dropSuffixesReversed true s else c :: s

/-- A member without array brackets and variadic dots at its end. -/
def dropSuffixes (part : Text) : Text := (dropSuffixesReversed false part.reverse).reverse

/-- One part of a union: whether a question mark starts it, and its bare member,
which may be empty. -/
def readPart (part : Text) : Bool × Text :=
  match Text.trim part with
  | '?' :: rest => (true, dropSuffixes (Text.trimStart rest))
  | part => (false, dropSuffixes part)

/-- Adds one part of a union. -/
def addPart (t : TypeExpr) (part : Text) : TypeExpr :=
  let (marked, bare) := readPart part
  if bare.isEmpty then { t with nullable := t.nullable || marked }
  else
    let member := normalizeMember bare
    { t with
      nullable := t.nullable || marked || member == "null".toList
      members := if t.members.contains member then t.members else t.members ++ [member] }

/-- Reads a type expression. -/
def parse (raw : Text) : TypeExpr :=
  let raw := Text.trim raw
  (Code.splitTopLevel '|' raw).foldl addPart { raw, members := [], nullable := false }

def isEmpty (t : TypeExpr) : Bool := t.members.isEmpty

end TypeExpr

/-- The last segment of a qualified name. -/
def shortName (name : Text) : Text :=
  ((Text.splitAtChar '\\' (name.dropWhile (· == '\\'))).getLast?).getD []

end PhpLint
