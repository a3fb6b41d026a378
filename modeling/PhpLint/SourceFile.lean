import PhpLint.FileTree.Basic
import PhpLint.Text.Lines

/-!
Reading the lines of a source file. Bytes that are no character do not spoil a file. A file
that is there can still be out of reach.
-/

namespace PhpLint.SourceFile

/-- Why there is no file to read. -/
inductive Error where
  | notFound (path : Path)
  | notAFile (path : Path)
  deriving DecidableEq, Repr

def Error.message : Error → String
  | .notFound path => "File not found: " ++ path.display
  | .notAFile path => "Not a file: " ++ path.display

/-- The lines of the file that a path leads to. -/
def readLines (t : FileTree) (path : Path) : Except Error (List Text) :=
  match t.lookup? path with
  | none => .error (.notFound path)
  | some (.file content) => .ok (Text.splitLines (Text.ofUtf8Lossy content))
  | some _ => .error (.notAFile path)

/-- Why the lines of a file cannot be read. -/
inductive ReadError where
  | noFile (cause : Error)
  | unreadable (path : Path) (cause : FileError)
  deriving DecidableEq, Repr

def ReadError.message : ReadError → String
  | .noFile cause => cause.message
  | .unreadable path cause => "Failed to read " ++ path.display ++ ": " ++ cause.message

/-- Reads the lines of a file, if there is one and nothing keeps it from being read. -/
def loadLines (t : FileTree) (path : Path) : Except ReadError (List Text) :=
  match readLines t path, t.read path with
  | .error cause, _ => .error (.noFile cause)
  | .ok _, .error cause => .error (.unreadable path cause)
  | .ok lines, .ok _ => .ok lines

end PhpLint.SourceFile
