import PhpLint.Code.Body
import PhpLint.Code.Search
import PhpLint.Check.Naming
import PhpLint.TypeExpr.Mismatch

/-!
Rules on documentation: declarations have doc comments, and the tags of a doc
comment agree with the declaration and with the body.
-/

namespace PhpLint.Check

/-- The way a message names a function: its kind and its qualified name. -/
def functionLabel (f : FunctionDecl) : String := f.kindName ++ " " ++ f.qualifiedName.named

/-- Classes, functions and properties have doc comments. -/
def missingDocblock (ctx : FileContext) (m : SourceModel) : List Issue :=
  ((m.classes.filter fun c => c.doc.isNone).map fun c =>
    ctx.issue c.startLine ("Missing PHPDoc for " ++ c.kind.name ++ " " ++ c.name.named ++ ".")) ++
  ((m.functions.filter fun f => f.doc.isNone).map fun f =>
    ctx.issue f.line ("Missing PHPDoc for " ++ functionLabel f ++ ".")) ++
  ((m.properties.filter fun p => p.doc.isNone).map fun p =>
    ctx.issue p.line ("Missing PHPDoc for property " ++ (propertyName p).named ++ "."))

/-- The disagreements between the parameters and the tags of one function. -/
def paramDocIssues (ctx : FileContext) (f : FunctionDecl) (doc : DocBlock) : List Issue :=
  ((f.parameters.keys.filter fun name => !doc.hasParam name).map fun name =>
    ctx.issue doc.startLine ("Missing @param tag for parameter " ++ Text.named ('$' :: name) ++
      " in " ++ functionLabel f ++ ".")) ++
  ((doc.params.keys.filter fun name => !f.parameters.contains name).map fun name =>
    ctx.issue doc.startLine ("Documented parameter " ++ Text.named ('$' :: name) ++
      " does not exist in " ++ functionLabel f ++ "."))

/-- Documented functions document their parameters and no others. -/
def paramDoc (ctx : FileContext) (m : SourceModel) : List Issue :=
  m.functions.flatMap fun f => (f.doc.map (paramDocIssues ctx f)).getD []

/-- Result types that need no tag. -/
def isVoidLike (type : Text) : Bool :=
  let type := Text.asciiLower (Text.trim type)
  type == "void".toList || type == "never".toList

/-- The disagreement between the result type and the tag of one function. -/
def returnDocIssue? (ctx : FileContext) (f : FunctionDecl) (doc : DocBlock) : Option Issue :=
  match f.returnType, doc.returns with
  | none, _ => none
  | some type, none =>
    if isVoidLike type then none
    else some (ctx.issue doc.startLine ("Missing @return tag for " ++ functionLabel f ++ "."))
  | some type, some tag =>
    if TypeExpr.contradicts tag.type.raw type then
      some (ctx.issue doc.startLine ("@return type mismatch in " ++ f.qualifiedName.named ++
        ": documented " ++ tag.type.raw.named ++ " vs actual " ++ type.named ++ "."))
    else none

/-- Documented functions document their result; constructors are exempt. -/
def returnDoc (ctx : FileContext) (m : SourceModel) : List Issue :=
  (m.functions.filter fun f => !f.isConstructorOrDestructor).filterMap fun f =>
    f.doc.bind (returnDocIssue? ctx f)

/-- Reads the throwing of a new exception up to its name. -/
def readThrow? (s : Text) : Option (Text × Text) := do
  let (_, s) ← Code.keyword? "throw".toList s
  let (_, s) ← Code.keyword? "new".toList (← Code.blanks? s)
  let s ← Code.blanks? s
  let lead := Text.strip? ['\\'] s
  let (name, rest) ← Code.readRun? Code.isNameStart (fun c => Code.isNamePart c || c == '\\')
    (lead.getD s)
  return (name, rest)

/-- The short names of the exceptions thrown in the body of the function declared
on a line, each once. -/
def thrownExceptions (lines : List Text) (declaration : Nat) : List Text :=
  match declaration with
  | 0 => []
  | start + 1 =>
    firstOccurrences ((Body.scan lines start).code.flatMap fun (_, code) =>
      (Code.findAllWords readThrow? code).map shortName)

/-- The undocumented exceptions of one function. -/
def throwsDocIssues (ctx : FileContext) (f : FunctionDecl) (doc : DocBlock) : List Issue :=
  ((thrownExceptions ctx.lines f.line).filter fun name => !doc.hasThrows name).map fun name =>
    ctx.issue doc.startLine ("Missing @throws tag for " ++ name.named ++ " in " ++
      functionLabel f ++ ".")

/-- Documented functions document the exceptions they throw. -/
def throwsDoc (ctx : FileContext) (m : SourceModel) : List Issue :=
  m.functions.flatMap fun f => (f.doc.map (throwsDocIssues ctx f)).getD []

end PhpLint.Check
