import PhpLint.Issue
import PhpLint.SourceModel.Basic

/-!
What a rule is given: the lines of a file and where the file lies. Every rule is a
function of this context and of the structural model.
-/

namespace PhpLint

structure FileContext where
  path : Path
  lines : List Text
  /-- The path relative to the root of the run. -/
  relativePath : Path
  deriving DecidableEq, Repr

namespace FileContext

def ofFile (path root : Path) (lines : List Text) : FileContext :=
  { path, lines, relativePath := path.relativeTo root }

/-- An issue on a line of the file. -/
def issue (ctx : FileContext) (line : Nat) (message : String) : Issue :=
  { file := ctx.relativePath, line, message }

/-- A line, counted from one. -/
def line? (ctx : FileContext) (line : Nat) : Option Text :=
  match line with
  | 0 => none
  | n + 1 => ctx.lines[n]?

/-- The lines with their numbers, counted from one. -/
def numbered (ctx : FileContext) : List (Nat × Text) :=
  (ctx.lines.zipIdx 1).map fun (line, number) => (number, line)

end FileContext

/-- A text as part of a message. -/
def Text.shown (s : Text) : String := String.ofList s

/-- A name in double quotes, as messages show it. -/
def Text.named (s : Text) : String := "\"" ++ s.shown ++ "\""

end PhpLint
