import PhpLint.FileTree.Walk
import PhpLint.Glob
import PhpLint.Ignore.Load
import PhpLint.Settings

/-!
Discovery: which source files lie below a root. A file is taken by the path on which
the walk finds it if that path has the right extension; it is then known by its path
without links, which must match no exclude pattern and must not be ignored.
-/

namespace PhpLint

/-- How source files are found. -/
structure Discovery where
  /-- Names of directories that are not entered. -/
  excludeDirs : List Text
  /-- Patterns of files that are left out. -/
  exclude : List Glob
  respectGitignore : Bool
  preloadGitignores : Bool
  deriving DecidableEq, Repr

/-- A pattern that cannot be read, and why. -/
structure PatternError where
  pattern : Text
  cause : Glob.Error
  deriving DecidableEq, Repr

def PatternError.message (e : PatternError) : String := Glob.excludeMessage e.pattern e.cause

/-- The settings of discovery, with the exclude patterns read. -/
def AnalyzerSettings.discovery (s : AnalyzerSettings) : Except PatternError Discovery :=
  match Glob.parseAll s.exclude with
  | .ok exclude =>
    .ok { excludeDirs := s.excludeDirs, exclude, respectGitignore := s.respectGitignore
          preloadGitignores := s.preloadGitignores }
  | .error (pattern, cause) => .error { pattern, cause }

/-- An entry that could not be visited, and why. -/
structure Unvisited where
  path : Path
  message : String
  deriving DecidableEq, Repr

/-- What a walk left out, by the path of the entry or else of the root. -/
def WalkError.unvisited (root : Path) (e : WalkError) : Unvisited :=
  { path := e.path?.getD root, message := e.message }

/-- What a discovery found. -/
structure DiscoveredFiles where
  /-- Source files in the order of paths, each of them once. -/
  files : List Path
  errors : List Unvisited
  deriving DecidableEq, Repr

namespace Discovery

/-- The extension of source files. -/
def sourceExtension : Text := "php".toList

/-- Whether a path has the extension of source files. -/
def isSource (p : Path) : Bool := p.extension? == some sourceExtension

/-- Whether an exclude pattern matches a file, by its path relative to the root or by
its full path. -/
def isExcluded (d : Discovery) (root file : Path) : Bool :=
  let relative := (file.below? root).getD file
  d.exclude.any fun g => g.isMatch relative.spelling || g.isMatch file.spelling

/-- The ignore files that count below a root. -/
def matcher (d : Discovery) (t : FileTree) (root : Path) : Ignore.Matcher :=
  if d.respectGitignore then Ignore.Matcher.load t root d.preloadGitignores d.excludeDirs else {}

/-- What is collected on a walk: the files and errors so far, latest first, and the ignore
files with the answers that they have given. -/
structure Collected where
  files : List Path := []
  errors : List Unvisited := []
  matcher : Ignore.Matcher

/-- Takes in one finding. The ignore files are asked last. -/
def collect (d : Discovery) (t : FileTree) (root : Path) (c : Collected) : Finding → Collected
  | .failure e => { c with errors := e.unvisited root :: c.errors }
  | .file path location =>
    let file := location.path
    if !isSource path || d.isExcluded root file then c
    else
      let (ignored, matcher) := c.matcher.isIgnored t.isDir file
      { c with files := if ignored then c.files else file :: c.files, matcher }

/-- A path and those behind it, without paths that are the same as the one in front
of them. -/
def dropRepeatsFrom (p : Path) : List Path → List Path
  | [] => [p]
  | q :: rest => if p.same q then dropRepeatsFrom p rest else p :: dropRepeatsFrom q rest

def dropRepeats : List Path → List Path
  | [] => []
  | p :: rest => dropRepeatsFrom p rest

/-- Sorts paths and drops repeated ones. -/
def sortPaths (paths : List Path) : List Path :=
  dropRepeats (paths.mergeSort fun p q => (p.compare q).isLE)

/-- Finds the source files below a root. -/
def discover (d : Discovery) (t : FileTree) (root : Path) : DiscoveredFiles :=
  let root := t.canonical root
  let found := (t.walk (d.excludeDirs.contains ·) root).foldl (d.collect t root)
    { matcher := d.matcher t root }
  { files := sortPaths found.files, errors := found.errors.reverse }

end Discovery

end PhpLint
