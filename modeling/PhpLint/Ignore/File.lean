import PhpLint.Ignore.Parser
import PhpLint.Path
import PhpLint.Text.Lines

/-!
Ignore files: the rules that the lines of one file give, and what they say about a
path. The last rule that matches decides; a path about which no rule says anything
goes with the directories it lies in.
-/

namespace PhpLint.Ignore

/-- What an ignore file says about a path. -/
inductive Verdict where
  | ignored
  /-- A rule with an exclamation mark takes it in again. -/
  | kept
  deriving DecidableEq, Repr

structure Rule where
  tokens : List Token
  verdict : Verdict
  /-- The rule is about directories only. -/
  dirsOnly : Bool
  deriving Repr

namespace Rule

/-- Drops white space at the end unless a backslash protects a space there. -/
def trimLine (line : Text) : Text :=
  if (Text.stripEnd? ['\\', ' '] line).isSome then line else Text.trimEnd line

/-- Splits the marks off the start of a line: the verdict, and whether the pattern is
anchored to the directory of the file. A backslash takes a mark its meaning. -/
def splitMarks (line : Text) : Verdict × Bool × Text :=
  match line with
  | '\\' :: '!' :: rest => (.ignored, false, '!' :: rest)
  | '\\' :: '#' :: rest => (.ignored, false, '#' :: rest)
  | '!' :: '/' :: rest => (.kept, true, rest)
  | '!' :: rest => (.kept, false, rest)
  | '/' :: rest => (.ignored, true, rest)
  | _ => (.ignored, false, line)

/-- Splits a separator off the end, with a backslash in front of it. -/
def splitDirMark (line : Text) : Bool × Text :=
  match Text.stripEnd? ['/'] line with
  | some rest => (true, (Text.stripEnd? ['\\'] rest).getD rest)
  | none => (false, line)

/-- The pattern of a line. Without an anchor and a separator it holds in every
directory below; two stars at the end stand for what is inside a directory only. -/
def pattern (anchored : Bool) (line : Text) : Text :=
  let anywhere : Text := ['*', '*', '/']
  let line :=
    if anchored || line.contains '/' || line == ['*', '*'] then line else anywhere ++ line
  if (Text.stripEnd? ['/', '*', '*'] line).isSome then line ++ ['/', '*'] else line

/-- The rule on a line. Comments and empty lines have none, nor has a line whose
pattern cannot be read. -/
def ofLine? (line : Text) : Option Rule :=
  if line.head? == some '#' then none
  else
    let line := trimLine line
    if line.isEmpty then none
    else
      let (verdict, anchored, line) := splitMarks line
      let (dirsOnly, line) := splitDirMark line
      (parseTokens? (pattern anchored line)).map fun tokens => { tokens, verdict, dirsOnly }

/-- Whether a rule is about a path, given relative to the rule's directory. -/
def applies (r : Rule) (path : Path) (isDir : Bool) : Bool :=
  (!r.dirsOnly || isDir) && matchTokens r.tokens (Text.utf8 path.spelling)

end Rule

/-- The rules of one ignore file. -/
structure File where
  /-- The directory it lies in. -/
  base : Path
  rules : List Rule
  deriving Repr

namespace File

/-- Drops a dot and a separator from the start. -/
def dropDot (p : Path) : Path := ⟨(Text.strip? ['.', '/'] p.spelling).getD p.spelling⟩

/-- Reads an ignore file. -/
def parse (base : Path) (content : Text) : File :=
  { base := dropDot base, rules := (Text.feedLines content).filterMap Rule.ofLine? }

/-- The spelling of a path relative to the directory of the file. A bare name stays
as it is. -/
def localPath (f : File) (path : Path) : Path :=
  let path := dropDot path
  if f.base.same ⟨['.']⟩ || !path.spelling.contains '/' then path
  else
    match Text.strip? f.base.spelling path.spelling with
    | some rest => ⟨(Text.strip? ['/'] rest).getD rest⟩
    | none => path

/-- Whether the rules can be put to a path. One that lies in the directory of the file
has to be spelled as the directory is, with one separator behind it. -/
def places (f : File) (path : Path) : Bool :=
  !(path.isWithin f.base && (f.localPath path).isAbsolute)

/-- What the rules say about one path, given relative to their directory. -/
def ruling? (f : File) (path : Path) (isDir : Bool) : Option Verdict :=
  (f.rules.reverse.find? (·.applies path isDir)).map Rule.verdict

/-- What the file says about a path: the ruling on the path itself, and else on the
nearest directory around it that there is one on. Paths outside the file's directory
do not concern it. -/
def verdict? (f : File) (path : Path) (isDir : Bool) : Option Verdict :=
  if !path.isWithin f.base then none
  else
    let inside := f.localPath path
    (f.ruling? inside isDir).or (inside.parents.findSome? (f.ruling? · true))

end File

end PhpLint.Ignore
