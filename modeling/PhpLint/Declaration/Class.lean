import PhpLint.Declaration.Modifier
import PhpLint.DocBlock.Basic

/-!
Classes, interfaces, traits and enums: what is recorded of them, and how the head
of a declaration is read.
-/

namespace PhpLint

inductive ClassKind where
  | ordinary
  | interface
  | trait
  | enum
  deriving DecidableEq, Repr, Inhabited

namespace ClassKind

def name : ClassKind → String
  | .ordinary => "class"
  | .interface => "interface"
  | .trait => "trait"
  | .enum => "enum"

def all : List ClassKind := [.ordinary, .interface, .trait, .enum]

/-- The kind that a keyword stands for. -/
def ofKeyword? (word : Text) : Option ClassKind :=
  let word := Text.asciiLower word
  all.find? fun k => k.name.toList == word

/-- The keywords that introduce a class. -/
def keywords : List Text := all.map fun k => k.name.toList

end ClassKind

inductive ClassModifier where
  | abstract
  | final
  deriving DecidableEq, Repr

def ClassModifier.name : ClassModifier → String
  | .abstract => "abstract"
  | .final => "final"

structure ClassDecl where
  name : Text
  kind : ClassKind
  startLine : Nat
  /-- The line of the closing brace, if the class is closed. -/
  endLine : Option Nat := none
  modifier : Option ClassModifier := none
  readonly : Bool := false
  namespaceName : Option Text := none
  parent : Option Text := none
  interfaces : List Text := []
  traits : List Text := []
  doc : Option DocBlock := none
  deriving DecidableEq, Repr

namespace ClassDecl

/-- Adds a name to a list unless it is there. -/
def addName (names : List Text) (name : Text) : List Text :=
  if names.contains name then names else names ++ [name]

def addInterface (c : ClassDecl) (name : Text) : ClassDecl :=
  { c with interfaces := addName c.interfaces name }

def addTrait (c : ClassDecl) (name : Text) : ClassDecl :=
  { c with traits := addName c.traits name }

/-- Closes the class, at its own first line at the earliest. -/
def close (c : ClassDecl) (line : Nat) : ClassDecl :=
  { c with endLine := some (max line c.startLine) }

/-- The name with its namespace in front. -/
def fullName (c : ClassDecl) : Text :=
  match c.namespaceName with
  | some space => if space.isEmpty then c.name else space ++ '\\' :: c.name
  | none => c.name

/-- The number of lines from the declaration to the closing brace. -/
def lineCount (c : ClassDecl) : Option Nat := c.endLine.map fun last => last - c.startLine + 1

/-- The modifiers of a class. -/
def modifiers : Modifier.Family where
  setters := false
  words := ["abstract", "final", "readonly"].map String.toList

/-- The head of a declaration: what stands before the clauses, and the rest. -/
structure Head where
  modifiers : List Modifier
  keyword : Text
  name : Text
  rest : Text
  deriving DecidableEq, Repr

/-- Reads modifiers, a class keyword and a name. -/
def readHead? (s : Text) : Option Head := do
  let (modifiers, s) := Modifier.readAll modifiers (Text.trimStart s)
  let (keyword, s) ← Code.anyKeyword? ClassKind.keywords s
  let s ← Code.blanks? s
  let (name, rest) ← Code.name? s
  return { modifiers, keyword, name, rest }

/-- Whether the parents end here: at the end, at a brace or at the word
`implements`, each after optional blanks. -/
def parentsEnd (previous : Char) (s : Text) : Bool :=
  match Text.trimStart s with
  | [] => true
  | '{' :: _ => true
  | c :: after =>
    (Text.isBlank (s.headD c) || !Text.isWord previous) &&
      match Code.keyword? "implements".toList (c :: after) with
      | some (_, rest) => Code.atWordEnd rest
      | none => false

/-- The rest of the parents after a first character; a line feed breaks them. -/
def parentsAfter (previous : Char) : Text → Option Text
  | [] => some []
  | c :: s =>
    if parentsEnd previous (c :: s) then some []
    else if c = '\n' then none
    else (parentsAfter c s).map (c :: ·)

/-- The shortest text that ends where parents end, and has a character. -/
def readParents? : Text → Option Text
  | [] => none
  | c :: s => if c = '\n' then none else (parentsAfter c s).map (c :: ·)

/-- The text of the `extends` clause. -/
def extends? (header : Text) : Option Text :=
  Code.findAtWordStart (fun s => do
    let (_, s) ← Code.keyword? "extends".toList s
    (Code.clauseStarts s).findSome? readParents?) none header

/-- The text up to a brace, if there is any. -/
def readInterfaces? (s : Text) : Option Text :=
  match (Text.cut (· == '{') s).1 with
  | [] => none
  | names => some names

/-- The text of the `implements` clause. -/
def implements? (header : Text) : Option Text :=
  Code.findAtWordStart (fun s => do
    let (_, s) ← Code.keyword? "implements".toList s
    (Code.clauseStarts s).findSome? readInterfaces?) none header

/-- The qualified names of a list with commas; anything else is skipped. -/
def qualifiedNames (s : Text) : List Text :=
  ((Text.splitAtChar ',' s).map Text.trim).filter Code.isQualifiedName

/-- Applies one modifier. -/
def applyModifier (c : ClassDecl) (m : Modifier) : ClassDecl :=
  if m.is "abstract" then { c with modifier := some .abstract }
  else if m.is "final" then { c with modifier := some .final }
  else if m.is "readonly" then { c with readonly := true }
  else c

/-- Adds the parent, and further parents as interfaces. -/
def addParents (c : ClassDecl) : List Text → ClassDecl
  | [] => c
  | parent :: more => more.foldl addInterface { c with parent := some parent }

/-- Reads a class declaration on a line. -/
def read? (line : Nat) (namespaceName : Option Text) (s : Text) : Option ClassDecl := do
  let head ← readHead? s
  let kind ← ClassKind.ofKeyword? head.keyword
  let c : ClassDecl := { name := head.name, kind, startLine := line, namespaceName }
  let c := head.modifiers.foldl applyModifier c
  let c := c.addParents (((extends? head.rest).map qualifiedNames).getD [])
  return (((implements? head.rest).map qualifiedNames).getD []).foldl addInterface c

/-- The traits that a line inside a class body names. -/
def readTraits (line : Text) : List Text :=
  let body := do
    let (_, rest) ← Code.keyword? "use".toList (Text.trimStart line)
    let rest ← Code.blanks? rest
    match Text.cut (fun c => c == ';' || c == '{') rest with
    | (_, []) => none
    | (names, _ :: _) => some names
  ((body.map qualifiedNames).getD []).map fun name => name.dropWhile (· == '\\')

end ClassDecl

end PhpLint
