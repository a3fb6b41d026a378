import PhpLint.Code.Bracket
import PhpLint.Declaration.Modifier
import PhpLint.DocBlock.Basic

/-!
Functions and methods with their parameters and result types.
-/

namespace PhpLint

structure Parameter where
  name : Text
  nullable : Bool
  /-- The type without a leading question mark. -/
  declaredType : Option Text
  default : Option Text
  variadic : Bool
  byReference : Bool
  promoted : Bool
  deriving DecidableEq, Repr

namespace Parameter

/-- The modifiers of a promoted parameter. -/
def modifiers : Modifier.Family where
  setters := true
  words := ["public", "protected", "private", "readonly"].map String.toList

/-- What stands before the name: the type and the two marks. -/
structure Marks where
  type : Text
  byReference : Bool
  variadic : Bool
  deriving DecidableEq, Repr

/-- Takes dots and an ampersand, with blanks around them, from the end of the text
before a name; the rest is the type. -/
def readMarks (s : Text) : Marks :=
  let s := Text.trimEnd s
  let (variadic, s) := match Text.stripEnd? ['.', '.', '.'] s with
    | some rest => (true, Text.trimEnd rest)
    | none => (false, s)
  match Text.stripEnd? ['&'] s with
  | some rest => ⟨Text.trim rest, true, variadic⟩
  | none => ⟨Text.trim s, false, variadic⟩

/-- Reads what follows the name: nothing, or an equals sign and a default that
stays on its line. The default may be blank but not missing. -/
def readDefault? (s : Text) : Option (Option Text) :=
  if s.isEmpty then some none
  else
    match Text.trimStart s with
    | '=' :: value =>
      match Text.trimStart value with
      | [] => if value.getLast?.any (· != '\n') then some (some []) else none
      | text => if text.contains '\n' then none else some (some (Text.trimEnd text))
    | _ => none

/-- Whether a type admits null, and the type without a leading question mark. -/
def readNullable (type : Text) : Bool × Text :=
  let (marked, type) := match type with
    | '?' :: rest => (true, Text.trimStart rest)
    | _ => (false, type)
  let named := (Code.splitTopLevel '|' type).any fun part =>
    Text.eqAsciiCase (Text.trim part) "null".toList
  (marked || named, type)

/-- Reads one parameter; in a constructor, an access keyword promotes it. -/
def read? (promotes : Bool) (raw : Text) : Option Parameter := do
  let s := Code.stripAttributes raw
  if ['#', '['].isPrefixOf s then none
  else
    let (ms, s) := Modifier.readAll modifiers s
    match Text.cut (· == '$') s with
    | (before, '$' :: rest) =>
      let (name, rest) ← Code.name? rest
      let default ← readDefault? rest
      let marks := readMarks before
      let (nullable, type) := readNullable marks.type
      return {
        name
        nullable
        declaredType := if type.isEmpty then none else some type
        default
        variadic := marks.variadic
        byReference := marks.byReference
        promoted := promotes && ms.any Modifier.isAccess }
    | _ => none

end Parameter

structure FunctionDecl where
  line : Nat
  name : Text
  /-- Methods have a visibility, functions have none. -/
  visibility : Option Visibility
  isStatic : Bool
  isAbstract : Bool
  className : Option Text
  /-- The declared result, which may be blank. -/
  returnType : Option Text
  /-- Parameters under their names. -/
  parameters : Keyed Text Parameter
  doc : Option DocBlock := none
  deriving DecidableEq, Repr

namespace FunctionDecl

def isMethod (f : FunctionDecl) : Bool := f.className.isSome

def hasReturnType (f : FunctionDecl) : Bool := f.returnType.isSome

/-- The name with its class in front. -/
def qualifiedName (f : FunctionDecl) : Text :=
  match f.className with
  | some owner => owner ++ ':' :: ':' :: f.name
  | none => f.name

def kindName (f : FunctionDecl) : String := if f.isMethod then "method" else "function"

def isNamed (f : FunctionDecl) (name : String) : Bool := Text.eqAsciiCase f.name name.toList

def isConstructor (f : FunctionDecl) : Bool := f.isNamed "__construct"

def isConstructorOrDestructor (f : FunctionDecl) : Bool :=
  f.isConstructor || f.isNamed "__destruct"

/-- Magic methods have names that start with two underscores. -/
def isMagic (f : FunctionDecl) : Bool := ['_', '_'].isPrefixOf f.name

/-- The modifiers of a function. -/
def modifiers : Modifier.Family where
  setters := false
  words := ["abstract", "final", "public", "protected", "private", "static"].map String.toList

/-- The head of a declaration; the rest starts with the opening parenthesis. -/
structure Head where
  modifiers : List Modifier
  name : Text
  rest : Text
  deriving DecidableEq, Repr

/-- Reads modifiers, the keyword, a name and an opening parenthesis. -/
def readHead? (s : Text) : Option Head := do
  let (modifiers, s) := Modifier.readAll modifiers (Text.trimStart s)
  let (_, s) ← Code.keyword? "function".toList s
  let s ← Code.blanks? s
  let s := Text.trimStart ((Text.strip? ['&'] s).getD s)
  let (name, s) ← Code.name? s
  match Text.trimStart s with
  | '(' :: rest => some { modifiers, name, rest := '(' :: rest }
  | _ => none

/-- Reads the result type after the parameters: it ends at a brace, at a semicolon
or with the text, and a colon with nothing at all behind it gives none. -/
def readReturnType? (s : Text) : Option Text :=
  match Text.trimStart s with
  | ':' :: s =>
    match (Text.cut (fun c => c == '{' || c == ';') s).1 with
    | [] => none
    | type => some (Text.trim type)
  | _ => none

/-- Adds a parameter under its name. -/
def addParameter (ps : Keyed Text Parameter) (p : Parameter) : Keyed Text Parameter :=
  ps.insert p.name p

/-- Reads a function declaration; its owner is the class whose body it stands in. -/
def read? (line : Nat) (owner : Option Text) (s : Text) : Option FunctionDecl := do
  let head ← readHead? s
  let (inside, after) ← Code.closeParen? head.rest
  let promotes := owner.isSome && Text.eqAsciiCase head.name "__construct".toList
  return {
    line
    name := head.name
    visibility := owner.map fun _ => (Modifier.visibility? head.modifiers).getD .pub
    isStatic := head.modifiers.any (·.is "static")
    isAbstract := head.modifiers.any (·.is "abstract")
    className := owner
    returnType := readReturnType? after
    parameters :=
      ((Code.splitTopLevel ',' inside).filterMap (Parameter.read? promotes)).foldl addParameter [] }

end FunctionDecl

end PhpLint
