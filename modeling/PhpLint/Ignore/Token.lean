import PhpLint.Text.Ends
import PhpLint.Text.Utf8

/-!
The tokens of an ignore pattern and what they match. Matching reads the bytes of a
path, so a question mark does not match a character of two bytes, and goes from the
last token to the first: a token turns the ends of the path that the tokens behind it
match into the ends that it matches with them.
-/

namespace PhpLint.Ignore

open Text (Bytes ByteRange)

/-- An interval of characters in a set. -/
structure CharRange where
  low : Char
  high : Char
  deriving DecidableEq, Repr

/-- The bytes of an interval: the spellings of its two ends are put side by side, and
the hyphen stands between the last byte of the one and the first byte of the other. -/
def CharRange.byteRanges (r : CharRange) : List ByteRange :=
  let single (b : UInt8) : ByteRange := ⟨b, b⟩
  let low := String.utf8EncodeChar r.low
  if r.low = r.high then low.map single
  else
    match low.reverse, String.utf8EncodeChar r.high with
    | last :: front, first :: back => front.map single ++ ⟨last, first⟩ :: back.map single
    | _, _ => []

inductive Token where
  | literal (c : Char)
  /-- One byte that is no separator. -/
  | anyByte
  /-- Any number of bytes that are no separators. -/
  | anyRun
  /-- Nothing, or a start that ends with a separator. -/
  | leadingDirs
  /-- A separator, or a separator, anything, and a separator. -/
  | innerDirs
  /-- A separator and all that is behind it. -/
  | trailingDirs
  /-- One byte of the set, or outside it. -/
  | set (negated : Bool) (ranges : List CharRange)
  /-- One of several branches. -/
  | choice (branches : List (List Token))
  deriving Repr, Inhabited

def separator : UInt8 := '/'.toUInt8

def isSeparator (b : UInt8) : Bool := b == separator

mutual

/-- A token that stands for nothing at all: a choice between branches of such tokens. -/
def Token.isSilent : Token → Bool
  | .choice branches => allSilent branches
  | _ => false

def isSilentBranch : List Token → Bool
  | [] => true
  | t :: rest => t.isSilent && isSilentBranch rest

def allSilent : List (List Token) → Bool
  | [] => true
  | branch :: rest => isSilentBranch branch && allSilent rest

end

/-- An accepted end, with or without a start in front of it that ends in a separator. -/
def endsBelow (path : Bytes) (ends : Ends) : Ends :=
  Ends.either ends (Ends.past isSeparator path ends)

mutual

/-- The ends of a path that a token and an accepted end behind it make up. -/
def Token.endsFrom : Token → Bytes → Ends → Ends
  | .literal c, path, ends =>
    (String.utf8EncodeChar c).foldr (fun b => Ends.one (· == b) path) ends
  | .anyByte, path, ends => Ends.one (!isSeparator ·) path ends
  | .anyRun, path, ends => Ends.many (!isSeparator ·) path ends
  | .leadingDirs, path, ends => endsBelow path ends
  | .innerDirs, path, ends => Ends.one isSeparator path (endsBelow path ends)
  | .trailingDirs, path, ends =>
    Ends.one isSeparator path (Ends.many (fun _ => true) path ends)
  | .set negated ranges, path, ends =>
    Ends.one (fun b => (ranges.any fun r => r.byteRanges.any (·.has b)) != negated) path ends
  | .choice branches, path, ends =>
    if allSilent branches then ends else choiceEnds branches path ends

/-- The ends that a sequence of tokens and an accepted end behind it make up. -/
def sequenceEnds : List Token → Bytes → Ends → Ends
  | [], _, ends => ends
  | t :: rest, path, ends => t.endsFrom path (sequenceEnds rest path ends)

/-- The ends that a branch and an accepted end behind it make up. An empty branch
counts for nothing here. -/
def choiceEnds : List (List Token) → Bytes → Ends → Ends
  | [], path, _ => Ends.passing (fun _ => false) path
  | branch :: rest, path, ends =>
    let others := choiceEnds rest path ends
    if isSilentBranch branch then others
    else Ends.either (sequenceEnds branch path ends) others

end

def Token.literal? : Token → Option Char
  | .literal c => some c
  | _ => none

/-- Whether tokens are plain text, possibly of several components below any
directory. -/
def isPlain : List Token → Bool
  | .leadingDirs :: rest =>
    rest.all (·.literal?.isSome) && rest.any (·.literal? == some '/')
  | tokens => tokens.all (·.literal?.isSome)

/-- Whether the last component of a path is the step to the parent directory. -/
def endsInParent (path : Bytes) : Bool :=
  let dot := '.'.toUInt8
  path.reverse.takeWhile (!isSeparator ·) == [dot, dot]

/-- Whether tokens match a whole path. Two stars alone match everything. The step to
the parent directory is no name, so of the tokens that end in a dot only plain text
finds it. -/
def matchTokens (tokens : List Token) (path : Bytes) : Bool :=
  match tokens with
  | [.leadingDirs] => true
  | _ =>
    let asksName := (tokens.getLast?.bind Token.literal?) == some '.' && !isPlain tokens
    !(asksName && endsInParent path) &&
      Ends.whole (sequenceEnds tokens path (Ends.passing List.isEmpty path))

end PhpLint.Ignore
