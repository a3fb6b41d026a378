import PhpLint.FileTree.Basic
import PhpLint.Settings

/-!
Where the settings of a run come from: a file that is named, else the nearest project
file at or above the directory to check, else a file of the user, else the defaults.
The search upwards ends with the directory that holds the marker of a project.
-/

namespace PhpLint.Cli

inductive ConfigSource where
  | explicit (path : Path)
  | project (path : Path)
  | global (path : Path)
  | default
  deriving DecidableEq, Repr

namespace ConfigSource

def path? : ConfigSource → Option Path
  | .explicit p | .project p | .global p => some p
  | .default => none

/-- The names of project files, the preferred one first. -/
def projectNames : List String := ["phpguard.toml", ".phpguard.toml"]

/-- The file that marks the top of a project. -/
def projectMarker : String := "composer.json"

/-- The name of the user's file. -/
def globalName : String := "config.toml"

/-- The project file in one directory. -/
def projectFile? (t : FileTree) (dir : Path) : Option Path :=
  (projectNames.map fun name => dir.join (.ofString name)).find? t.isFile

/-- The first project file in directories from the inside to the outside, up to the
one with the marker. -/
def searchUpwards (t : FileTree) : List Path → Option Path
  | [] => none
  | dir :: outer =>
    match projectFile? t dir with
    | some p => some p
    | none => if t.isFile (dir.join (.ofString projectMarker)) then none else searchUpwards t outer

/-- Looks a project file up from an absolute directory. -/
def findProject? (t : FileTree) (start : Path) : Option Path :=
  searchUpwards t (start :: start.parents)

/-- Where the settings for checking an absolute directory come from, given the file
that is named and the directory of the user's file. -/
def locate (t : FileTree) (start : Path) (named globalDir : Option Path) : ConfigSource :=
  match named with
  | some p => .explicit p
  | none =>
    match findProject? t start with
    | some p => .project p
    | none =>
      match globalDir.map (·.join (.ofString globalName)) with
      | some p => if t.isFile p then .global p else .default
      | none => .default

/-- The settings of a source; `none` if its file cannot be read. Paths are meant in a
working directory. -/
def load? (t : FileTree) (cwd : Path) (source : ConfigSource) : Option Settings :=
  match source.path? with
  | none => some {}
  | some p => do (Settings.parse (← t.readText? (cwd.join p))).toOption

end ConfigSource

end PhpLint.Cli
