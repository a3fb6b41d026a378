import PhpLint.Code.Scrubber
import PhpLint.Declaration.Class
import PhpLint.Declaration.Function

/-!
Logical lines. A function signature spread over several lines, or a class whose
brace stands on a later line, is joined into one logical line; every other line
is a logical line of its own. Each physical line goes into exactly one logical
line, and at most sixty-four of them are joined.
-/

namespace PhpLint

structure LogicalLine where
  /-- The first physical line, counted from one. -/
  first : Nat
  /-- The last physical line. -/
  last : Nat
  /-- The text without comments. -/
  text : Text
  /-- The text without comments and without the contents of literals. -/
  code : Text
  /-- Opening minus closing braces of the code. -/
  braceDelta : Int
  /-- Whether it begins inside a comment or a literal. -/
  continues : Bool
  deriving DecidableEq, Repr

namespace LogicalLine

/-- The largest number of lines that are joined. -/
def maxJoined : Nat := 64

/-- What a joined line is waiting for. -/
inductive Pending where
  | signature
  | classHead
  deriving DecidableEq, Repr

/-- Whether a physical line starts with the colon of a result type. -/
def startsReturnType (line : Option Text) : Bool :=
  match line.map Text.trimStart with
  | some (':' :: ':' :: _) => false
  | some (':' :: _) => true
  | _ => false

/-- Whether nothing but the end of a declaration is left: the end itself, or a
brace or semicolon with the rest of its line. -/
def isDeclarationEnd : Text → Bool
  | [] => true
  | c :: s => (c == '{' || c == ';') && !s.contains '\n'

/-- Whether a result type or nothing, and then the end of a declaration, follows
the parenthesis of a signature. -/
def endsSignature (s : Text) : Bool :=
  match Text.trimStart s with
  | ':' :: s => isDeclarationEnd (s.dropWhile fun c => c != '{' && c != ';')
  | s => isDeclarationEnd s

/-- Whether some closing parenthesis of a code ends a signature. -/
def hasSignatureEnd : Text → Bool
  | [] => false
  | c :: s => (c == ')' && endsSignature s) || hasSignatureEnd s

def endsWithParen (code : Text) : Bool := (Text.trimEnd code).getLast? == some ')'

/-- Joins two texts, trimmed, by one blank; blank ones leave no trace. -/
def append (joined piece : Text) : Text :=
  let piece := Text.trim piece
  if piece.isEmpty then joined
  else if joined.isEmpty then piece
  else joined ++ ' ' :: piece

/-- A logical line that is being joined. -/
structure Buffer where
  kind : Pending
  line : LogicalLine
  joined : Nat
  opened : Nat
  closed : Nat
  deriving DecidableEq, Repr

/-- Adds a physical line. -/
def Buffer.push (b : Buffer) (number : Nat) (text code : Text) : Buffer :=
  let (opened, closed) := Code.parenCounts code
  { b with
    line := { b.line with
      last := number
      text := append b.line.text text
      code := append b.line.code code
      braceDelta := b.line.braceDelta + Code.braceDelta code }
    joined := b.joined + 1
    opened := b.opened + opened
    closed := b.closed + closed }

/-- Whether the line is complete after a physical line with the given code; `next`
is the first line after it that is not blank. -/
def Buffer.isComplete (b : Buffer) (lastCode : Text) (next : Option Text) : Bool :=
  decide (maxJoined ≤ b.joined) ||
    match b.kind with
    | .signature =>
      decide (0 < b.opened) && b.opened == b.closed &&
        hasSignatureEnd (Text.trimEnd b.line.code) &&
        !(endsWithParen b.line.code && startsReturnType next)
    | .classHead => lastCode.contains '{' || lastCode.contains ';'

/-- What a line that stands alone so far has to be joined for. -/
def pending? (line : LogicalLine) (next : Option Text) : Option Pending :=
  let decl := Code.stripAttributes line.text
  if (FunctionDecl.readHead? decl).isSome then
    let (opened, closed) := Code.parenCounts line.code
    let dangling := decide (0 < opened) && opened == closed && endsWithParen line.code &&
      startsReturnType next
    if closed < opened ∨ dangling then some .signature else none
  else if (ClassDecl.readHead? decl).isSome && !line.code.contains '{' && !line.code.contains ';'
  then some .classHead
  else none

/-- Starts a buffer with one line. -/
def Buffer.start (kind : Pending) (line : LogicalLine) : Buffer :=
  let (opened, closed) := Code.parenCounts line.code
  { kind
    line := { line with text := Text.trim line.text, code := Text.trim line.code }
    joined := 1
    opened
    closed }

/-- Reads physical lines from a number on, with the scrubbers for the code and for
the text, and with the line that is being joined. -/
def ofLinesFrom (number : Nat) (coder texter : Scrubber) (buffer : Option Buffer) :
    List Text → List LogicalLine
  | [] => (buffer.map Buffer.line).toList
  | raw :: rest =>
    let next := rest.find? fun l => !(Text.trim l).isEmpty
    let continues := coder.inComment || coder.inLiteral
    let (code, coder) := coder.scrub raw
    let (text, texter) := texter.scrub raw
    match buffer with
    | some b =>
      let b := b.push number text code
      if b.isComplete code next then b.line :: ofLinesFrom (number + 1) coder texter none rest
      else ofLinesFrom (number + 1) coder texter (some b) rest
    | none =>
      let line : LogicalLine :=
        { first := number, last := number, text, code
          braceDelta := Code.braceDelta code, continues }
      match if continues then none else pending? line next with
      | some kind => ofLinesFrom (number + 1) coder texter (some (.start kind line)) rest
      | none => line :: ofLinesFrom (number + 1) coder texter none rest

/-- The logical lines of a file. -/
def ofLines (lines : List Text) : List LogicalLine :=
  ofLinesFrom 1 {} { keepLiterals := true } none lines

end LogicalLine

end PhpLint
