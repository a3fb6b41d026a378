import PhpLint.Code.Body
import PhpLint.Code.Keyword
import PhpLint.Check.Context

/-!
Rules on the structure of a file: the size of classes and methods, the complexity
of functions, imports that nothing uses, and a namespace around classes.
-/

namespace PhpLint.Check

/-- The number of lines of a method, from its declaration to its end, that are
not blank. -/
def methodLength (lines : List Text) (declaration : Nat) : Nat :=
  match declaration with
  | 0 => 0
  | start + 1 =>
    let body := Body.scan lines start
    ((lines.drop start).take body.span).countP fun line => !(Text.trim line).isEmpty

private def lengthMessage (what : String) (name : Text) (length limit : Nat) : String :=
  what ++ name.named ++ " is too long. (" ++ toString length ++ " lines, max: " ++
    toString limit ++ ")"

/-- A class that is too long; a class without an end is not measured. -/
def classLengthIssue? (limit : Nat) (ctx : FileContext) (c : ClassDecl) : Option Issue :=
  match c.lineCount with
  | some length =>
    if length ≤ limit then none
    else some (ctx.issue c.startLine (lengthMessage "Class " c.name length limit))
  | none => none

/-- A method that is too long. -/
def methodLengthIssue? (limit : Nat) (ctx : FileContext) (f : FunctionDecl) : Option Issue :=
  let length := methodLength ctx.lines f.line
  if length ≤ limit then none
  else some (ctx.issue f.line (lengthMessage "Method " f.qualifiedName length limit))

/-- Classes and methods have limited lengths. -/
def classLength (maxClass maxMethod : Nat) (ctx : FileContext) (m : SourceModel) : List Issue :=
  m.classes.filterMap (classLengthIssue? maxClass ctx) ++
    (m.functions.filter FunctionDecl.isMethod).filterMap (methodLengthIssue? maxMethod ctx)

/-- The keywords that branch. -/
def branchWords : List Text :=
  ["if", "elseif", "for", "foreach", "while", "case", "catch"].map String.toList

/-- Replaces the operators on null, which do not branch, by a blank each. -/
def dropNullOperators : Text → Text
  | [] => []
  | '?' :: '?' :: '=' :: s => ' ' :: dropNullOperators s
  | '?' :: '?' :: s => ' ' :: dropNullOperators s
  | '?' :: '-' :: '>' :: s => ' ' :: dropNullOperators s
  | c :: s => c :: dropNullOperators s

/-- The number of words that branch. -/
def branchCount (code : Text) : Nat :=
  (Code.words code).countP fun word => branchWords.any (Code.foldsTo word)

/-- The number of logical operators with a blank after them. -/
def logicalCount : Text → Nat
  | '&' :: '&' :: c :: s =>
    if Text.isBlank c then logicalCount s + 1 else logicalCount ('&' :: c :: s)
  | '|' :: '|' :: c :: s =>
    if Text.isBlank c then logicalCount s + 1 else logicalCount ('|' :: c :: s)
  | _ :: s => logicalCount s
  | [] => 0

/-- The number of question marks with a colon before the next question mark, where
each colon counts once; `waiting` tells that a question mark waits for its colon. -/
def ternaryCount (waiting : Bool) : Text → Nat
  | [] => 0
  | c :: s =>
    if c = '?' then ternaryCount true s
    else if c = ':' ∧ waiting then ternaryCount false s + 1
    else ternaryCount waiting s

/-- The decisions on one line of a body. -/
def decisionCount (code : Text) : Nat :=
  let code := dropNullOperators code
  branchCount code + logicalCount code + ternaryCount false code

/-- The cyclomatic complexity of the function declared on a line. -/
def complexity (lines : List Text) (declaration : Nat) : Nat :=
  match declaration with
  | 0 => 1
  | start + 1 =>
    (Body.scan lines start).code.foldl (fun total (_, code) => total + decisionCount code) 1

/-- Functions have limited complexity. -/
def cyclomaticComplexity (limit : Nat) (ctx : FileContext) (m : SourceModel) : List Issue :=
  m.functions.filterMap fun f =>
    let value := complexity ctx.lines f.line
    if value ≤ limit then none
    else
      some (ctx.issue f.line ("Function " ++ f.qualifiedName.named ++
        " has cyclomatic complexity of " ++ toString value ++ ". (max: " ++ toString limit ++ ")"))

/-- The words of all lines after the given one, comments left out. -/
def wordsAfter (lines : List Text) (line : Nat) : List Text :=
  ((commentFreeLines lines).drop line).flatMap Code.words

/-- Imports are used after the last import. -/
def unusedImports (ctx : FileContext) (m : SourceModel) : List Issue :=
  match (m.imports.map Import.line).max? with
  | none => []
  | some last =>
    let words := wordsAfter ctx.lines last
    (m.imports.filter fun i => !words.contains i.effectiveName).map fun i =>
      (ctx.issue i.line ("Unused import " ++ i.fullName.named ++ ".")).withHelp
        "remove the `use` statement"

/-- Files with classes have a namespace. -/
def namespaceDeclaration (ctx : FileContext) (m : SourceModel) : List Issue :=
  if m.classes.isEmpty || m.namespaceName.isSome then []
  else [ctx.issue 1 "Missing namespace declaration."]

end PhpLint.Check
