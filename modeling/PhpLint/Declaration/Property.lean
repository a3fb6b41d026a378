import PhpLint.Code.Bracket
import PhpLint.Declaration.Modifier
import PhpLint.DocBlock.Basic

/-!
Properties of a class. One declaration may list several names; they share
modifiers and type, and each may have a default of its own.
-/

namespace PhpLint

structure Property where
  line : Nat
  name : Text
  visibility : Visibility
  isStatic : Bool
  readonly : Bool
  className : Text
  declaredType : Option Text
  default : Option Text
  doc : Option DocBlock := none
  deriving DecidableEq, Repr

namespace Property

/-- The modifiers of a property. -/
def modifiers : Modifier.Family where
  setters := true
  words :=
    ["public", "protected", "private", "var", "static", "readonly", "final", "abstract"].map
      String.toList

/-- The head of a declaration: modifiers, type, and the text from the first name
on to the end of the line. -/
structure Head where
  modifiers : List Modifier
  type : Text
  names : Text
  deriving DecidableEq, Repr

/-- Reads one modifier or more and a type. The first dollar sign, equals sign or
semicolon after them has to be the dollar sign of a name. -/
def readHead? (s : Text) : Option Head :=
  match Modifier.readAll modifiers (Text.trimStart s) with
  | ([], _) => none
  | (ms, s) =>
    match Text.cut (fun c => c == '$' || c == '=' || c == ';') s with
    | (type, '$' :: c :: rest) =>
      if Code.isNameStart c then
        some ⟨ms, Text.trim type, '$' :: c :: rest.takeWhile (· != '\n')⟩
      else none
    | _ => none

/-- One name with its default, if that has any text. -/
structure Item where
  name : Text
  default : Option Text
  deriving DecidableEq, Repr

/-- Reads a name and an optional default that together make up a text. -/
def readItem? (s : Text) : Option Item := do
  match Text.trimStart s with
  | '$' :: s =>
    let (name, rest) ← Code.identifier? s
    match Text.trimStart rest with
    | [] => some { name, default := none }
    | '=' :: value =>
      let value := Text.trim value
      some { name, default := if value.isEmpty then none else some value }
    | _ => none
  | _ => none

/-- Cuts a block of property hooks off: a brace that comes before any default. -/
def dropHooks (s : Text) : Text :=
  let (before, rest) := Text.cut (· == '{') s
  if rest.isEmpty || before.contains '=' then s else before

/-- The names that a declaration lists. -/
def items (names : Text) : List Item :=
  let first := (Code.splitTopLevel ';' names).headD []
  (Code.splitTopLevel ',' (dropHooks first)).filterMap readItem?

/-- Whether a line is about a function or a constant and so declares no property. -/
def isOtherMember (s : Text) : Bool :=
  (Code.words s).any fun w => Code.foldsTo w "function".toList || Code.foldsTo w "const".toList

/-- The properties that a line of a class body declares. -/
def read (line : Nat) (className : Text) (classReadonly : Bool) (s : Text) : List Property :=
  if isOtherMember s then []
  else
    match readHead? s with
    | none => []
    | some head =>
      (items head.names).map fun item =>
        { line
          name := item.name
          visibility := (Modifier.visibility? head.modifiers).getD .pub
          isStatic := head.modifiers.any (·.is "static")
          readonly := classReadonly || head.modifiers.any (·.is "readonly")
          className
          declaredType := if head.type.isEmpty then none else some head.type
          default := item.default }

end Property

end PhpLint
