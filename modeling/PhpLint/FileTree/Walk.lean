import PhpLint.FileTree.Basic

/-!
Walking a file tree: every entry below a directory is visited once for every way
that leads to it without running in a circle. Links are followed; a link to a
directory that the walk is already inside of is reported instead, and so is a directory
that cannot be listed.
-/

namespace PhpLint

/-- Why a walk leaves an entry out. -/
inductive WalkError where
  | unusable (path : Path) (cause : FileError)
  /-- A link to a directory around it. -/
  | circle (link ancestor : Path)
  /-- A link to a directory that cannot be listed. Nothing tells which one it is. -/
  | unopened (cause : FileError)
  deriving DecidableEq, Repr

namespace WalkError

/-- The entry that is left out, as far as it is known. -/
def path? : WalkError → Option Path
  | .unusable path _ => some path
  | .circle link _ => some link
  | .unopened _ => none

def message : WalkError → String
  | .unusable path cause => "IO error for operation on " ++ path.display ++ ": " ++ cause.message
  | .circle link ancestor =>
    "File system loop found: " ++ link.display ++ " points to an ancestor " ++ ancestor.display
  | .unopened cause => cause.message

end WalkError

/-- What a walk comes across, directories apart. -/
inductive Finding where
  /-- A file by the path on which it was found, and where it lies. -/
  | file (path : Path) (location : Location)
  | failure (error : WalkError)
  deriving DecidableEq, Repr

/-- A directory that a walk is inside of. -/
structure Ancestor where
  path : Path
  location : Location
  deriving DecidableEq, Repr

namespace FileTree

/-- How many levels below its root a walk goes. -/
def maxWalkDepth : Nat := 100

/-- Walks the entries of the innermost of the given directories, and as many levels
below it as are left. Directories whose names are skipped are not entered. -/
def walkInside (t : FileTree) (skip : Text → Bool) :
    (levels : Nat) → (here : Ancestor) → (around : List Ancestor) → List Finding
  | 0, _, _ => []
  | levels + 1, here, around =>
    match t.barred? here.location with
    | some cause => [.failure (.unusable here.path cause)]
    | none =>
      (t.children here.location).flatMap fun (name, node) =>
        let path := here.path.join ⟨name⟩
        let enter (location : Location) : List Finding :=
          if skip name then [] else walkInside t skip levels ⟨path, location⟩ (here :: around)
        match node with
        | .file _ => [.file path (name :: here.location)]
        | .dir => enter (name :: here.location)
        | .link _ =>
          match t.resolve path with
          | .error cause => [.failure (.unusable path cause)]
          | .ok location =>
            if t.node? location = some .dir then
              match t.barred? location, (here :: around).find? (·.location = location) with
              | some cause, _ => [.failure (.unopened cause)]
              | none, some ancestor => [.failure (.circle path ancestor.path)]
              | none, none => enter location
            else [.file path location]

/-- Walks a directory, or visits the one file that a path leads to. -/
def walk (t : FileTree) (skip : Text → Bool) (root : Path) : List Finding :=
  match t.resolve root with
  | .error cause => [.failure (.unusable root cause)]
  | .ok location =>
    if t.node? location = some .dir then t.walkInside skip maxWalkDepth ⟨root, location⟩ []
    else [.file root location]

end FileTree

end PhpLint
