import PhpLint.DocBlock.Lookup
import PhpLint.LogicalLine
import PhpLint.SourceModel.Basic

/-!
The structural parser reads the logical lines of a file once, in order. It keeps
the brace depth and the open class with the depth around it; a declaration
belongs to that class if it stands directly in its body.
-/

namespace PhpLint.SourceModel

/-- The class whose body is being read. -/
structure OpenClass where
  decl : ClassDecl
  /-- The brace depth around the class. -/
  depth : Int
  /-- An opening brace has been seen. -/
  bodySeen : Bool
  deriving DecidableEq, Repr

/-- The state between two logical lines. -/
structure Reading where
  depth : Int := 0
  openClass : Option OpenClass := none
  /-- What is recorded so far; of the classes, those that are closed. -/
  model : SourceModel := {}
  deriving DecidableEq, Repr

/-- Why a file has no model. -/
abbrev Error := Import.GroupError

/-- Reads the declaration of strict types at the start of a text. -/
def readStrictTypes? (s : Text) : Option Text := do
  let (_, s) ← Code.keyword? "declare".toList s
  let s ← Text.strip? ['('] (Text.trimStart s)
  let (_, s) ← Code.keyword? "strict_types".toList (Text.trimStart s)
  let s ← Text.strip? ['='] (Text.trimStart s)
  let s ← Text.strip? ['1'] (Text.trimStart s)
  Text.strip? [')'] (Text.trimStart s)

/-- Whether strict types are declared somewhere in a text. -/
def declaresStrictTypes : Text → Bool
  | [] => false
  | c :: s => (readStrictTypes? (c :: s)).isSome || declaresStrictTypes s

/-- The namespace that a line declares. -/
def readNamespace? (line : Text) : Option Text := do
  let (_, s) ← Code.keyword? "namespace".toList (Text.trimStart line)
  let s ← Code.blanks? s
  let s := (Text.strip? ['\\'] s).getD s
  let (name, s) ← Code.readRun? Code.isNameStart (fun c => Code.isNamePart c || c == '\\') s
  match Text.trimStart s with
  | ';' :: _ | '{' :: _ => some (Text.dropEndWhile (· == '\\') name)
  | _ => none

namespace Reading

def readStrictTypes (r : Reading) (line : LogicalLine) : Reading :=
  if declaresStrictTypes line.text then { r with model := { r.model with strictTypes := true } }
  else r

def readNamespace (r : Reading) (line : LogicalLine) : Reading :=
  match readNamespace? line.text with
  | some name => { r with model := { r.model with namespaceName := some name } }
  | none => r

/-- Inside a class a `use` line names traits, outside it names imports. -/
def readUse (r : Reading) (line : LogicalLine) : Except Error Reading :=
  match r.openClass with
  | some c =>
    let decl := (ClassDecl.readTraits line.text).foldl ClassDecl.addTrait c.decl
    .ok { r with openClass := some { c with decl } }
  | none =>
    match Import.readStatement? line.text with
    | none => .ok r
    | some statement => do
      let imports ← Import.ofStatement line.first statement
      return { r with model := { r.model with imports := r.model.imports ++ imports } }

/-- Opens a class, unless one is open. -/
def readClass (lines : List Text) (r : Reading) (line : LogicalLine) (decl : Text)
    (depth : Int) : Reading :=
  if r.openClass.isSome then r
  else
    match ClassDecl.read? line.first r.model.namespaceName decl with
    | none => r
    | some c =>
      let decl := { c with doc := DocBlock.above? lines line.first }
      { r with openClass := some { decl, depth, bodySeen := line.code.contains '{' } }

/-- Records the properties of a line directly inside a class body. -/
def readProperties (lines : List Text) (r : Reading) (line : LogicalLine) (decl : Text)
    (depth : Int) : Reading :=
  match r.openClass with
  | some c =>
    if depth = c.depth + 1 then
      let properties :=
        (Property.read line.first c.decl.name c.decl.readonly decl).map fun p =>
          { p with doc := DocBlock.above? lines line.first }
      { r with model := { r.model with properties := r.model.properties ++ properties } }
    else r
  | none => r

/-- The name of the class that owns what is declared at a depth. -/
def owner? (r : Reading) (depth : Int) : Option Text :=
  match r.openClass with
  | some c => if depth = c.depth + 1 then some c.decl.name else none
  | none => none

/-- Records the function of a line. -/
def readFunction (lines : List Text) (r : Reading) (line : LogicalLine) (decl : Text)
    (depth : Int) : Reading :=
  let function := (FunctionDecl.read? line.first (r.owner? depth) decl).map fun f =>
    { f with doc := DocBlock.above? lines line.first }
  { r with model := { r.model with functions := r.model.functions ++ function.toList } }

/-- Closes the open class when the depth is back at the one around it and its
body has been seen. -/
def closeClass (r : Reading) (line : LogicalLine) : Reading :=
  match r.openClass with
  | none => r
  | some c =>
    if c.depth < r.depth then { r with openClass := some { c with bodySeen := true } }
    else if c.bodySeen then
      { r with
        openClass := none
        model := { r.model with classes := r.model.classes ++ [c.decl.close line.last] } }
    else r

/-- Records what a line declares, given the depth at which it starts. -/
def readDeclarations (lines : List Text) (r : Reading) (line : LogicalLine) (depth : Int) :
    Except Error Reading := do
  let r ← ((r.readStrictTypes line).readNamespace line).readUse line
  let decl := Code.stripAttributes line.text
  let r := r.readClass lines line decl depth
  let r := r.readProperties lines line decl depth
  return r.readFunction lines line decl depth

/-- Reads one logical line. -/
def step (lines : List Text) (r : Reading) (line : LogicalLine) : Except Error Reading := do
  let depth := r.depth
  let r := { r with depth := r.depth + line.braceDelta }
  let r ← if line.continues then .ok r else r.readDeclarations lines line depth
  return r.closeClass line

/-- The model after the last line; an open class stays without an end. -/
def finish (r : Reading) : SourceModel :=
  { r.model with
    classes := r.model.classes ++ (r.openClass.map OpenClass.decl).toList
    finalDepth := r.depth }

end Reading

/-- The structural model of a file. -/
def ofLines (lines : List Text) : Except Error SourceModel :=
  Reading.finish <$> (LogicalLine.ofLines lines).foldlM (Reading.step lines) {}

end PhpLint.SourceModel
