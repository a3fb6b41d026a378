import PhpLint.Code.Scrubber
import PhpLint.Code.Search
import PhpLint.Naming
import PhpLint.Check.Context

/-!
Rules on names: declarations, constants and variables.
-/

namespace PhpLint.Check

private def renameTo (name : Text) : String := "rename to `" ++ name.shown ++ "`"

/-- A misnamed class. -/
def classNameIssue? (ctx : FileContext) (c : ClassDecl) : Option Issue :=
  if Naming.isPascalCase c.name then none
  else
    some ((ctx.issue c.startLine ("Class " ++ c.name.named ++ " should be in PascalCase.")).withHelp
      (renameTo (Naming.toPascalCase c.name)))

/-- A misnamed function or method; magic methods are exempt. -/
def functionNameIssue? (ctx : FileContext) (f : FunctionDecl) : Option Issue :=
  if f.isMagic || Naming.isCamelCase f.name then none
  else
    let kind := if f.isMethod then "Method " else "Function "
    some ((ctx.issue f.line (kind ++ f.qualifiedName.named ++ " should be in camelCase.")).withHelp
      (renameTo (Naming.toCamelCase f.name)))

/-- The way a message names a property. -/
def propertyName (p : Property) : Text := p.className ++ ':' :: ':' :: '$' :: p.name

/-- A misnamed property. -/
def propertyNameIssue? (ctx : FileContext) (p : Property) : Option Issue :=
  if Naming.isCamelCase p.name then none
  else
    some ((ctx.issue p.line
      ("Property " ++ (propertyName p).named ++ " should be in camelCase.")).withHelp
      (renameTo ('$' :: Naming.toCamelCase p.name)))

/-- Classes are in Pascal case; functions, methods and properties in camel case. -/
def namingConvention (ctx : FileContext) (m : SourceModel) : List Issue :=
  m.classes.filterMap (classNameIssue? ctx) ++ m.functions.filterMap (functionNameIssue? ctx) ++
    m.properties.filterMap (propertyNameIssue? ctx)

/-- The letters and signs of a constant's type. -/
def isConstTypePart (c : Char) : Bool :=
  c.isAlpha || c == '_' || c == 'ſ' || c == '\u212a' || c == '\\' || c == '?' || c == '|'

/-- Reads a name and an equals sign. -/
def readAssigned? (s : Text) : Option (Text × Text) := do
  let (name, s) ← Code.name? s
  let s ← Text.strip? ['='] (Text.trimStart s)
  return (name, s)

/-- Reads the keyword, an optional type, a name and an equals sign. -/
def readConst? (s : Text) : Option (Text × Text) := do
  let (_, s) ← Code.keyword? "const".toList s
  let s ← Code.blanks? s
  let typed := do
    let (_, s) ← Code.readRun? isConstTypePart isConstTypePart s
    readAssigned? (← Code.blanks? s)
  match typed with
  | some found => some found
  | none => readAssigned? s

def isQuote (c : Char) : Bool := c == '\'' || c == '"'

/-- Reads the start of a define call up to the quote of its first argument. -/
def readDefineOpen? (s : Text) : Option (Unit × Text) := do
  let (_, s) ← Code.keyword? "define".toList s
  let s ← Text.strip? ['('] (Text.trimStart s)
  match Text.trimStart s with
  | c :: s => if isQuote c then some ((), s) else none
  | [] => none

/-- Reads a define call up to the end of its first argument, which has text. -/
def readDefine? (s : Text) : Option (Text × Text) := do
  let (_, s) ← readDefineOpen? s
  match Text.cut isQuote s with
  | ([], _) | (_, []) => none
  | (name, _ :: rest) => some (name, rest)

/-- The names of the constants of a line: those after the keyword, then those
defined at run time. As many defines count as the code has, and names with a
namespace are left out. -/
def constantNames (code text : Text) : List Text :=
  let defines := (Code.findAllWords readDefineOpen? code).length
  Code.findAllWords readConst? code ++
    ((Code.findAllWords readDefine? text).take defines).filter fun name => !name.contains '\\'

/-- A misnamed constant on a line. -/
def constantNameIssue? (ctx : FileContext) (line : Nat) (name : Text) : Option Issue :=
  if Naming.isConstantCase name then none
  else
    some ((ctx.issue line ("Constant " ++ name.named ++ " should be in CONSTANT_CASE.")).withHelp
      (renameTo (Naming.toConstantCase name)))

/-- Constants are in constant case. -/
def constantNaming (ctx : FileContext) : List Issue :=
  let lines := (codeLines ctx.lines).zip (commentFreeLines ctx.lines)
  (lines.zipIdx 1).flatMap fun ((code, text), line) =>
    (constantNames code text).filterMap (constantNameIssue? ctx line)

/-- Variables that the language itself names. -/
def reservedVariables : List Text :=
  ["this", "GLOBALS", "_SERVER", "_GET", "_POST", "_FILES", "_COOKIE", "_SESSION", "_REQUEST",
    "_ENV"].map String.toList

/-- Reads a variable. -/
def readVariable? : Text → Option (Text × Text)
  | '$' :: s => Code.identifier? s
  | _ => none

def isVariableName (name : Text) : Bool :=
  reservedVariables.contains name || Naming.isCamelCase name || Naming.isSnakeCase name

/-- The distinct entries of a list, in order of first appearance. -/
def firstOccurrences (names : List Text) : List Text :=
  names.foldl (fun seen name => if seen.contains name then seen else seen ++ [name]) []

/-- The misnamed variables of a line of code, each once. -/
def misnamedVariables (code : Text) : List Text :=
  firstOccurrences ((Code.findAll readVariable? code).filter fun name => !isVariableName name)

/-- Variables are in camel case or snake case. -/
def variableNaming (ctx : FileContext) : List Issue :=
  ((codeLines ctx.lines).zipIdx 1).flatMap fun (code, line) =>
    (misnamedVariables code).map fun name =>
      (ctx.issue line
        ("Variable " ++ Text.named ('$' :: name) ++ " should be in camelCase.")).withHelp
        (renameTo ('$' :: Naming.toCamelCase name))

end PhpLint.Check
