import PhpLint.DocBlock.Basic
import PhpLint.Text.Lines
import PhpLint.Text.Word

/-!
Reading a doc comment. Every line is cleaned of its comment markers and is then
blank, a tag or plain text. A bare tag (an empty body, or only the parts that
must be there) absorbs the text lines that follow it; all other text lines belong
to the summary until the first blank line and to the description from there on.
-/

namespace PhpLint.DocBlock

/-- A line without comment markers and surrounding blanks. -/
def cleanLine (line : Text) : Text :=
  let line := Text.trim line
  let line := ((Text.stripEnd? ['*', '/'] line).map Text.trimEnd).getD line
  let line := (Text.strip? ['/'] line).getD line
  Text.trim (line.dropWhile (· == '*'))

/-- A tag with its name and its body. -/
structure Tag where
  name : Text
  body : Text
  deriving DecidableEq, Repr

/-- The characters of a tag's name after the first, which is an ASCII letter. -/
def isTagPart (c : Char) : Bool := Text.isWord c || c == '-' || c == '\\' || c == ':'

/-- Reads a clean line as a tag: blanks separate the name from the body. -/
def readTag? : Text → Option Tag
  | '@' :: c :: s =>
    let (name, rest) := s.span isTagPart
    if c.isAlpha && rest.head?.all Text.isBlank then some ⟨c :: name, Text.trim rest⟩ else none
  | _ => none

/-- Splits the leading type off a body at the first blank outside brackets. -/
def splitType (depth : Nat) : Text → Text × Text
  | [] => ([], [])
  | c :: s =>
    if depth = 0 ∧ Text.isBlank c then ([], Text.trimStart (c :: s))
    else
      let depth :=
        if Code.isOpening c then depth + 1 else if Code.isClosing c then depth - 1 else depth
      let (type, rest) := splitType depth s
      (c :: type, rest)

/-- A variable name after its dollar sign, and the text after the blanks behind
it if there are any. -/
def readVariable? : Text → Option (Text × Option Text)
  | '$' :: s =>
    match s.span Text.isWord with
    | ([], _) => none
    | (name, []) => some (name, none)
    | (name, c :: rest) =>
      if Text.isBlank c then some (name, some (Text.trimStart rest)) else none
  | _ => none

/-- What a parameter tag says about the variable. -/
structure Target where
  byReference : Bool
  variadic : Bool
  name : Text
  description : Option Text
  deriving DecidableEq, Repr

/-- Reads an optional ampersand, optional dots and a variable, with blanks
between them. -/
def readTarget? (s : Text) : Option Target := do
  let byReference := s.head? == some '&'
  let s := Text.trimStart (if byReference then s.tail else s)
  let dots := Text.strip? ['.', '.', '.'] s
  let s := Text.trimStart (dots.getD s)
  let (name, description) ← readVariable? s
  return { byReference, variadic := dots.isSome, name, description }

/-- The type and the rest of a parameter tag; a body that starts with the
variable has no type. -/
def splitParam (body : Text) : Text × Text :=
  let (type, rest) := splitType 0 body
  if type.head? == some '$' || type.head? == some '&' || ['.', '.', '.'].isPrefixOf type then
    ([], body)
  else (type, rest)

/-- A description, unless it is blank. -/
def nonBlank (s : Text) : Option Text :=
  match Text.trim s with
  | [] => none
  | s => some s

/-- Whether a tag is bare, so that text lines after it continue its body. -/
def Tag.absorbs (tag : Tag) : Bool :=
  if tag.body.isEmpty then true
  else if tag.name = "param".toList then
    match readTarget? (splitParam tag.body).2 with
    | some target => target.description.isNone
    | none => false
  else
    let rest := (splitType 0 tag.body).2
    if tag.name = "return".toList ∨ tag.name = "throws".toList then rest.isEmpty
    else if tag.name = "var".toList then
      rest.isEmpty ||
        match readVariable? rest with
        | some (_, description) => description.isNone
        | none => false
    else false

def readParam? (body : Text) : Option ParamTag := do
  let (type, rest) := splitParam body
  let target ← readTarget? rest
  return {
    name := target.name
    type := TypeExpr.parse type
    description := target.description.bind nonBlank
    variadic := target.variadic || (Text.stripEnd? ['.', '.', '.'] type).isSome
    byReference := target.byReference }

/-- A variable tag gives its type and name in either order, or the type only. -/
def readVar? (body : Text) : Option VarTag :=
  let (first, rest) := splitType 0 body
  if first.isEmpty then none
  else
    match readVariable? body with
    | some (name, after) =>
      let (type, description) := splitType 0 (after.getD [])
      some { type := TypeExpr.parse type, name := some name, description := nonBlank description }
    | none =>
      match readVariable? rest with
      | some (name, after) =>
        some { type := TypeExpr.parse first, name := some name,
               description := after.bind nonBlank }
      | none =>
        some { type := TypeExpr.parse first, name := none, description := nonBlank rest }

/-- Records one exception of a throws tag. -/
def addThrows (description : Text) (throws : Keyed Text ThrowsTag) (part : Text) :
    Keyed Text ThrowsTag :=
  let exception := (Text.trim part).dropWhile (· == '\\')
  if exception.isEmpty then throws
  else
    throws.insert (shortName exception)
      { type := TypeExpr.parse exception, description := nonBlank description }

/-- Records a complete tag. The last result and the last variable win. -/
def addTag (doc : DocBlock) (tag : Tag) : DocBlock :=
  if tag.name = "param".toList then
    match readParam? tag.body with
    | some param => { doc with params := doc.params.insert param.name param }
    | none => doc
  else if tag.name = "return".toList then
    let (type, rest) := splitType 0 tag.body
    if type.isEmpty then doc
    else
      { doc with returns := some { type := TypeExpr.parse type, description := nonBlank rest } }
  else if tag.name = "throws".toList then
    let (type, rest) := splitType 0 tag.body
    { doc with throws := (Code.splitTopLevel '|' type).foldl (addThrows rest) doc.throws }
  else if tag.name = "var".toList then
    match readVar? tag.body with
    | some var => { doc with var := some var }
    | none => doc
  else if tag.name = "deprecated".toList then
    { doc with deprecated := true, deprecatedMessage := nonBlank tag.body }
  else { doc with tags := doc.tags.push tag.name tag.body }

/-- A tag whose lines are still being read. -/
structure Pending where
  tag : Tag
  absorbs : Bool
  deriving DecidableEq, Repr

/-- The state between two lines of a doc comment. -/
structure Reading where
  doc : DocBlock
  summary : List Text := []
  /-- A blank line or a tag has ended the summary. -/
  summaryDone : Bool := false
  description : List Text := []
  pending : Option Pending := none
  deriving DecidableEq, Repr

/-- Records the pending tag, if there is one. -/
def Reading.flush (r : Reading) : Reading :=
  match r.pending with
  | some pending => { r with doc := addTag r.doc pending.tag, pending := none }
  | none => r

/-- A tag's body continued by one more line. -/
def Tag.continued (tag : Tag) (line : Text) : Tag :=
  { tag with body := if tag.body.isEmpty then line else tag.body ++ ' ' :: line }

/-- Adds a line that is neither blank nor a tag. -/
def Reading.addText (r : Reading) (line : Text) : Reading :=
  match r.pending with
  | some ⟨tag, true⟩ => { r with pending := some ⟨tag.continued line, true⟩ }
  | _ =>
    if r.summaryDone then { r with description := r.description ++ [line] }
    else { r with summary := r.summary ++ [line] }

/-- Reads one line of the comment. -/
def Reading.step (r : Reading) (rawLine : Text) : Reading :=
  match cleanLine rawLine with
  | [] =>
    let r := r.flush
    { r with summaryDone := r.summaryDone || !r.summary.isEmpty }
  | line =>
    match readTag? line with
    | some tag => { r.flush with summaryDone := true, pending := some ⟨tag, tag.absorbs⟩ }
    | none => r.addText line

/-- The block that the lines so far make up. -/
def Reading.finish (r : Reading) : DocBlock :=
  { r.flush.doc with
    summary := Text.join [' '] r.summary
    description := Text.join ['\n'] r.description }

/-- Reads a doc comment that spans the given lines. -/
def parse (raw : Text) (startLine endLine : Nat) : DocBlock :=
  ((Text.feedLines raw).foldl Reading.step { doc := { startLine, endLine, raw } }).finish

end PhpLint.DocBlock
