import PhpLint.FileTree.Basic
import PhpLint.Ignore.Matcher

/-!
Loading ignore files from a file tree: the one of the root, and if asked for those of
the directories below it, outer ones before inner ones.
-/

namespace PhpLint.Ignore

def fileName : Text := ".gitignore".toList

/-- The ignore file of a directory, if there is one that can be read as text. -/
def content? (t : FileTree) (dir : Path) : Option Text := t.readText? (dir.join ⟨fileName⟩)

/-- How many levels below the root ignore files are looked for. -/
def maxLoadDepth : Nat := 20

/-- The names of the directories in a directory, links left out, in order. -/
def subdirs (t : FileTree) (excluded : List Text) (location : Location) : List Text :=
  let names := (t.children location).filterMap fun (name, node) =>
    if node = .dir ∧ name ∉ excluded then some name else none
  names.mergeSort fun a b => (compare a b).isLE

/-- The ignore files of a directory and of a number of levels below it, with the
directories they lie in. -/
def filesWithin (t : FileTree) (excluded : List Text) :
    (levels : Nat) → Path → Location → List (Path × Text)
  | levels, dir, location =>
    let own := (content? t dir).toList.map fun content => (dir, content)
    match levels with
    | 0 => own
    | levels + 1 =>
      own ++ (subdirs t excluded location).flatMap fun name =>
        filesWithin t excluded levels (dir.join ⟨name⟩) (name :: location)

/-- The matcher for a root directory. -/
def Matcher.load (t : FileTree) (root : Path) (preload : Bool) (excluded : List Text) : Matcher :=
  let files :=
    match t.resolve root with
    | .ok location => filesWithin t excluded (if preload then maxLoadDepth else 0) root location
    | .error _ => []
  files.foldl (fun m (dir, content) => m.addFile dir content) {}

end PhpLint.Ignore
