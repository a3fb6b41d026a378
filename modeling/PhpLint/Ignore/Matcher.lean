import PhpLint.Ignore.File
import Std.Data.HashMap

/-!
Ignore files taken together. Files that were added later decide before earlier ones.
Answers are remembered up to a limit; when it is reached, the older half of them is
forgotten.
-/

namespace PhpLint.Ignore

/-- Whether files ignore a path: the last of them that says anything about it decides. -/
def filesIgnore (files : List File) (path : Path) (isDir : Bool) : Bool :=
  files.reverse.findSome? (·.verdict? path isDir) == some .ignored

/-- Remembered answers. Paths of the same components share one. -/
structure AnswerCache where
  /-- The paths in the order in which they were asked about, latest first. -/
  recent : List (List PathComponent) := []
  answers : Std.HashMap (List PathComponent) Bool := {}

namespace AnswerCache

/-- How many answers are remembered at most. -/
def limit : Nat := 10000

def size (c : AnswerCache) : Nat := c.answers.size

def get? (c : AnswerCache) (path : Path) : Option Bool := c.answers[path.components]?

/-- Forgets the older half of the answers. -/
def dropOlderHalf (c : AnswerCache) : AnswerCache :=
  let kept := c.size - c.size / 2
  { recent := c.recent.take kept
    answers := (c.recent.drop kept).foldl (fun answers key => answers.erase key) c.answers }

/-- Remembers the answer on a path that has none yet. -/
def insert (c : AnswerCache) (path : Path) (answer : Bool) : AnswerCache :=
  let c := if limit ≤ c.size then c.dropOlderHalf else c
  { recent := path.components :: c.recent, answers := c.answers.insert path.components answer }

end AnswerCache

/-- Ignore files in the order in which they were added, and the remembered answers. -/
structure Matcher where
  files : List File := []
  cache : AnswerCache := {}

/-- A path that lies in the directory of an ignore file and is not spelled so. -/
structure Misplaced where
  path : Path
  base : Path
  deriving DecidableEq, Repr

namespace Matcher

/-- The number of rules of all files. -/
def ruleCount (m : Matcher) : Nat :=
  m.files.foldl (fun total f => total + f.rules.length) 0

/-- Adds the ignore file of a directory. A file without rules is left out; in any case
the remembered answers are forgotten. -/
def addFile (m : Matcher) (base : Path) (content : Text) : Matcher :=
  let f := File.parse base content
  { files := if f.rules.isEmpty then m.files else m.files ++ [f] }

/-- Whether a path is ignored, by the remembered answer if there is one. -/
def isIgnored (m : Matcher) (isDir : Path → Bool) (path : Path) : Bool × Matcher :=
  if m.files.isEmpty then (false, m)
  else
    match m.cache.get? path with
    | some answer => (answer, m)
    | none =>
      let answer := filesIgnore m.files path (isDir path)
      (answer, { m with cache := m.cache.insert path answer })

/-- Whether a path of any spelling is ignored. There is no answer, unless it is
remembered, if a file cannot put its rules to the path. -/
def ask (m : Matcher) (isDir : Path → Bool) (path : Path) : Except Misplaced (Bool × Matcher) :=
  match m.cache.get? path, m.files.find? (!·.places path) with
  | none, some f => .error { path, base := f.base }
  | _, _ => .ok (m.isIgnored isDir path)

end Matcher

end PhpLint.Ignore
