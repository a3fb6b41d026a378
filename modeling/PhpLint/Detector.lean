import PhpLint.Discovery
import PhpLint.Report
import PhpLint.Rule
import PhpLint.SourceFile
import PhpLint.SourceModel.Parser

/-!
Running one rule over files. A detector keeps what its last run found; a run on a
root that is no directory leaves that untouched.
-/

namespace PhpLint

/-- Why a run cannot be completed. -/
inductive DetectError where
  | directoryNotFound (path : Path)
  /-- A file whose structure cannot be read. -/
  | malformed (cause : SourceModel.Error)
  deriving DecidableEq, Repr

/-- The message on a root that is no directory. -/
def DetectError.directoryMessage (path : Path) : String :=
  "Directory not found: " ++ path.display

/-- A rule and what its last run found. -/
structure Detector where
  rule : Rule
  issues : List Issue := []
  filesChecked : Nat := 0
  /-- The files that could not be read, by their paths relative to the root. -/
  errors : ErrorTable := []
  deriving DecidableEq, Repr

namespace Detector

/-- The detector without findings. -/
def reset (d : Detector) : Detector := { rule := d.rule }

/-- The issues of a rule on a file, in the order of lines, with the rule recorded. -/
def issuesOf (rule : Rule) (root path : Path) (lines : List Text) :
    Except SourceModel.Error (List Issue) := do
  let model ← SourceModel.ofLines lines
  let found := rule.check (FileContext.ofFile path root lines) model
  let sorted := found.mergeSort fun a b => decide (a.line ≤ b.line)
  return sorted.map fun issue => issue.withRule rule.code rule.name

/-- Adds what the rule finds in one file. -/
def addFile (t : FileTree) (root : Path) (d : Detector) (path : Path) :
    Except SourceModel.Error Detector :=
  match SourceFile.loadLines t path with
  | .error e => .ok { d with errors := d.errors.insert (path.relativeTo root) e.message }
  | .ok lines => do
    let found ← issuesOf d.rule root path lines
    return { d with issues := d.issues ++ found, filesChecked := d.filesChecked + 1 }

/-- Checks files; the result tells whether there are no issues. -/
def detectFiles (d : Detector) (t : FileTree) (root : Path) (files : List Path) :
    Except DetectError Bool × Detector :=
  if !t.isDir root then (.error (.directoryNotFound root), d)
  else
    match files.foldlM (addFile t root) d.reset with
    | .ok d => (.ok d.issues.isEmpty, d)
    | .error e => (.error (.malformed e), d)

/-- Records what discovery could not visit. -/
def addUnvisited (d : Detector) (root : Path) (errors : List Unvisited) : Detector :=
  { d with
    errors := errors.foldl (fun table e => table.insert (e.path.relativeTo root) e.message)
      d.errors }

/-- Checks the files that a discovery found below a root. -/
def detectFound (d : Detector) (t : FileTree) (root : Path) (found : DiscoveredFiles) :
    Except DetectError Bool × Detector :=
  if !t.isDir root then (.error (.directoryNotFound root), d)
  else
    let root := t.canonical root
    match d.detectFiles t root found.files with
    | (.ok passed, d) => (.ok passed, d.addUnvisited root found.errors)
    | failed => failed

/-- Finds the files below a root and checks them. -/
def detect (d : Detector) (t : FileTree) (root : Path) (discovery : Discovery) :
    Except DetectError Bool × Detector :=
  d.detectFound t root (discovery.discover t root)

end Detector

end PhpLint
