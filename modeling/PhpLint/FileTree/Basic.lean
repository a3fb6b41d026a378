import PhpLint.Keyed
import PhpLint.Path
import PhpLint.Text.Utf8

/-!
A file system as a value: which directories, files and links there are. An entry is
known by where it lies, so two paths lead to the same directory exactly if they
resolve to the same location. Resolving a path follows links; it reads the pieces of
the path one by one and counts the links it has followed. Some entries are barred: a file
that cannot be read, or a directory that can neither be listed nor entered.
-/

namespace PhpLint

open Text (Bytes)

/-- Where an entry lies: the names from the entry up to the top. -/
abbrev Location := List Text

/-- The path of a location without links, dots and doubled separators. -/
def Location.path (l : Location) : Path := ⟨'/' :: Text.join ['/'] l.reverse⟩

inductive Node where
  | dir
  | file (content : Bytes)
  /-- A link, with its target as written. -/
  | link (target : Path)
  deriving DecidableEq, Repr

/-- Why a path cannot be used. -/
inductive FileError where
  | notFound
  | notDirectory
  | isDirectory
  | tooManyLinks
  | denied
  | failed
  deriving DecidableEq, Repr

def FileError.message : FileError → String
  | .notFound => "No such file or directory (os error 2)"
  | .notDirectory => "Not a directory (os error 20)"
  | .isDirectory => "Is a directory (os error 21)"
  | .tooManyLinks => "Too many levels of symbolic links (os error 40)"
  | .denied => "Permission denied (os error 13)"
  | .failed => "Input/output error (os error 5)"

/-- The entries of a file system below its top, which is a directory. -/
structure FileTree where
  nodes : Keyed Location Node := []
  /-- Where what an entry holds is out of reach, and why. -/
  barred : Keyed Location FileError := []
  deriving DecidableEq, Repr

namespace FileTree

/-- The entry at a location. -/
def node? (t : FileTree) (l : Location) : Option Node :=
  if l.isEmpty then some .dir else t.nodes.get? l

/-- What keeps a file from being read, or a directory from being listed and entered. -/
def barred? (t : FileTree) (l : Location) : Option FileError := t.barred.get? l

/-- The entries of a directory with their names. -/
def children (t : FileTree) (l : Location) : List (Text × Node) :=
  t.nodes.filterMap fun (place, node) =>
    match place with
    | name :: parent => if parent = l then some (name, node) else none
    | [] => none

/-- Follows the pieces of a path from a directory. A link is left to `onLink`, which
is given the directory it lies in, its target and the pieces behind it. With `create`
the last piece may name an entry that does not exist yet. -/
def follow (t : FileTree) (create : Bool)
    (onLink : Location → Path → List Text → Except FileError Location) :
    Location → List Text → Except FileError Location
  | l, [] => .ok l
  | l, segment :: rest =>
    if Path.isIdle segment then follow t create onLink l rest
    else if segment = ['.', '.'] then follow t create onLink l.tail rest
    else
      match t.node? (segment :: l) with
      | some (.link target) => onLink l target rest
      | some .dir => follow t create onLink (segment :: l) rest
      | some (.file _) => if rest.isEmpty then .ok (segment :: l) else .error .notDirectory
      | none =>
        match t.barred? l with
        | some cause => .error cause
        | none => if create && rest.isEmpty then .ok (segment :: l) else .error .notFound

/-- Follows the pieces of a path and at most a given number of links. -/
def resolveFrom (t : FileTree) (create : Bool) :
    (links : Nat) → Location → List Text → Except FileError Location
  | 0 => t.follow create fun _ _ _ => .error .tooManyLinks
  | links + 1 => t.follow create fun l target rest =>
      resolveFrom t create links (if target.isAbsolute then [] else l) (target.segments ++ rest)

/-- How many links are followed on the way to one entry. -/
def maxLinks : Nat := 40

/-- The location that an absolute path leads to. -/
def resolve (t : FileTree) (p : Path) : Except FileError Location :=
  t.resolveFrom false maxLinks [] p.segments

/-- The location that an absolute path leads to, of an entry that may be missing. -/
def resolveNew (t : FileTree) (p : Path) : Except FileError Location :=
  t.resolveFrom true maxLinks [] p.segments

/-- The entry that a path leads to; it is no link. -/
def lookup? (t : FileTree) (p : Path) : Option Node :=
  match t.resolve p with
  | .ok l => t.node? l
  | .error _ => none

def pathExists (t : FileTree) (p : Path) : Bool := (t.lookup? p).isSome

def isDir (t : FileTree) (p : Path) : Bool := t.lookup? p == some .dir

def isFile (t : FileTree) (p : Path) : Bool :=
  match t.lookup? p with
  | some (.file _) => true
  | _ => false

/-- The path without links to the same entry, or the path itself if it leads nowhere. -/
def canonical (t : FileTree) (p : Path) : Path :=
  match t.resolve p with
  | .ok l => l.path
  | .error _ => p

/-- The bytes of a file. -/
def read (t : FileTree) (p : Path) : Except FileError Bytes := do
  let l ← t.resolve p
  match t.node? l, t.barred? l with
  | some (.file content), none => .ok content
  | some (.file _), some cause => .error cause
  | some _, _ => .error .isDirectory
  | none, _ => .error .notFound

/-- The text of a file whose bytes are all characters. -/
def readText? (t : FileTree) (p : Path) : Option Text :=
  match t.read p with
  | .ok content => Text.ofUtf8? content
  | .error _ => none

def insert (t : FileTree) (l : Location) (node : Node) : FileTree :=
  { t with nodes := t.nodes.insert l node }

/-- Records what keeps an entry from being read or listed. -/
def bar (t : FileTree) (l : Location) (cause : FileError) : FileTree :=
  { t with barred := t.barred.insert l cause }

/-- Writes a file, through links, in a directory that exists. -/
def write (t : FileTree) (p : Path) (content : Bytes) : Except FileError FileTree := do
  let l ← t.resolveNew p
  match t.node? l, t.barred? l with
  | some .dir, _ => .error .isDirectory
  | _, some cause => .error cause
  | _, none => .ok (t.insert l (.file content))

/-- Makes a directory unless there is an entry or no place for it. -/
def makeDir (t : FileTree) (p : Path) : FileTree :=
  match t.resolveNew p with
  | .ok l => if (t.node? l).isNone then t.insert l .dir else t
  | .error _ => t

/-- Makes a directory with those around it, which are given from the nearest on, as far
as they are missing. -/
def makeDirInside (t : FileTree) : List Path → FileTree
  | [] => t
  | p :: around => if t.pathExists p then t else (makeDirInside t around).makeDir p

/-- Makes a directory with those around it. -/
def makeDirs (t : FileTree) (p : Path) : FileTree := t.makeDirInside (p :: p.parents)

/-- Where the last component of a path lies, without following it. -/
def place? (t : FileTree) (p : Path) : Option Location := do
  let parent ← (t.resolve (← p.parent?)).toOption
  return (← p.fileName?) :: parent

/-- Puts a link where there is no entry. -/
def makeLink (t : FileTree) (p target : Path) : FileTree :=
  match t.place? p with
  | some l => if (t.node? l).isNone then t.insert l (.link target) else t
  | none => t

/-- Removes a file or a link. -/
def remove (t : FileTree) (p : Path) : FileTree :=
  match t.place? p with
  | some l =>
    if t.node? l = some .dir then t
    else { nodes := t.nodes.erase l, barred := t.barred.erase l }
  | none => t

end FileTree

end PhpLint
