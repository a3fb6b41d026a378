import PhpLint.Text.Basic

/-!
The scrubber removes comments and the contents of literals from source lines, so
that braces and parentheses can be counted in what remains. Its mode is carried
from line to line. A literal keeps its quotes, a block comment leaves one blank
at its end, a heredoc leaves a pair of quotes where it opens and where it closes.
A scrubber that keeps literals removes the comments only.
-/

namespace PhpLint

/-- What the text at the current position belongs to. -/
inductive ScrubMode where
  | code
  | comment
  | literal (quote : Char)
  | heredoc (label : Text)
  deriving DecidableEq, Repr

structure Scrubber where
  keepLiterals : Bool := false
  mode : ScrubMode := .code
  deriving DecidableEq, Repr

namespace Scrubber

/-- Whether the next line starts inside a block comment. -/
def inComment (s : Scrubber) : Bool :=
  match s.mode with
  | .comment => true
  | _ => false

/-- Whether the next line starts inside a string or a heredoc. -/
def inLiteral (s : Scrubber) : Bool :=
  match s.mode with
  | .literal _ | .heredoc _ => true
  | _ => false

/-- The label of a heredoc, read after its opening angle brackets: blanks and
quotes are skipped, and a label does not start with a digit. -/
def heredocLabel? (rest : Text) : Option Text :=
  let label := ((Text.trimStart rest).dropWhile fun c => c == '\'' || c == '"').takeWhile
    Text.isIdentPart
  match label with
  | [] => none
  | c :: _ => if c.isDigit then none else some label

/-- The text after the closing label of a heredoc, if the line closes it: its
first text is the label, and no identifier character follows. -/
def closeHeredoc? (label line : Text) : Option Text :=
  match Text.strip? label (Text.trimStart line) with
  | some [] => some []
  | some (c :: rest) => if Text.isIdentPart c then none else some (c :: rest)
  | none => none

/-- Scrubs the rest of a line from a mode other than a heredoc; what follows the
opening of a heredoc on its line belongs to it. -/
def scan (keep : Bool) : ScrubMode → Text → Text × ScrubMode
  | mode, [] => ([], mode)
  | .heredoc label, line => (if keep then line else [], .heredoc label)
  | .comment, '*' :: '/' :: rest =>
    let (out, mode) := scan keep .code rest
    (' ' :: out, mode)
  | .comment, _ :: rest => scan keep .comment rest
  | .literal q, ['\\'] => (if keep then ['\\'] else [], .literal q)
  | .literal q, '\\' :: c :: rest =>
    let (out, mode) := scan keep (.literal q) rest
    (if keep then '\\' :: c :: out else out, mode)
  | .literal q, c :: rest =>
    if c = q then
      let (out, mode) := scan keep .code rest
      (c :: out, mode)
    else
      let (out, mode) := scan keep (.literal q) rest
      (if keep then c :: out else out, mode)
  | .code, '/' :: '/' :: _ => ([], .code)
  | .code, '/' :: '*' :: rest => scan keep .comment rest
  | .code, '#' :: '[' :: rest =>
    let (out, mode) := scan keep .code rest
    ('#' :: '[' :: out, mode)
  | .code, '#' :: _ => ([], .code)
  | .code, '<' :: '<' :: '<' :: rest =>
    match heredocLabel? rest with
    | some label =>
      (if keep then '<' :: '<' :: '<' :: rest else ['"', '"'], .heredoc label)
    | none =>
      let (out, mode) := scan keep .code ('<' :: '<' :: rest)
      ('<' :: out, mode)
  | .code, c :: rest =>
    let next := if c = '\'' ∨ c = '"' ∨ c = '`' then ScrubMode.literal c else .code
    let (out, mode) := scan keep next rest
    (c :: out, mode)

/-- Scrubs one line from the mode in which it starts. -/
def scrubFrom (keep : Bool) (mode : ScrubMode) (line : Text) : Text × ScrubMode :=
  match mode with
  | .heredoc label =>
    match closeHeredoc? label line with
    | none => (if keep then line else [], mode)
    | some rest =>
      let (out, next) := scan keep .code rest
      ((if keep then label else ['"', '"']) ++ out, next)
  | _ => scan keep mode line

/-- Scrubs one line and moves on to the mode at its end. -/
def scrub (s : Scrubber) (line : Text) : Text × Scrubber :=
  let (out, mode) := scrubFrom s.keepLiterals s.mode line
  (out, { s with mode })

/-- Scrubs lines in order; each result comes with the scrubber after its line. -/
def scrubAll (s : Scrubber) : List Text → List (Text × Scrubber)
  | [] => []
  | line :: rest =>
    let (out, next) := s.scrub line
    (out, next) :: next.scrubAll rest

end Scrubber

/-- Lines without comments and without the contents of literals. -/
def codeLines (lines : List Text) : List Text :=
  (({} : Scrubber).scrubAll lines).map Prod.fst

/-- Lines without comments. -/
def commentFreeLines (lines : List Text) : List Text :=
  (({ keepLiterals := true } : Scrubber).scrubAll lines).map Prod.fst

/-- One line scrubbed on its own. -/
def scrubLine (line : Text) : Text := (Scrubber.scan false .code line).1

end PhpLint
