import PhpLint.Text.Ends
import PhpLint.Text.Quoted

/-!
Exclude patterns. A star stands for any text, also across separators, a question
mark for one character, brackets for one of a set; two stars are a component of
their own and stand for any number of components.
-/

namespace PhpLint

/-- A member of a bracket set. -/
inductive GlobMember where
  | single (c : Char)
  | range (low high : Char)
  deriving DecidableEq, Repr

def GlobMember.admits : GlobMember → Char → Bool
  | .single a, c => a == c
  | .range low high, c => decide (low ≤ c) && decide (c ≤ high)

inductive GlobToken where
  | char (c : Char)
  | anyChar
  /-- Any text. -/
  | anyText
  /-- Any number of components, each with the separator after it. -/
  | anyComponents
  /-- A character of the set, or outside it. -/
  | set (negated : Bool) (members : List GlobMember)
  deriving DecidableEq, Repr

structure Glob where
  /-- The pattern as written. -/
  source : Text
  tokens : List GlobToken
  deriving DecidableEq, Repr

namespace Glob

inductive ErrorKind where
  | wildcards
  | recursiveWildcards
  | invalidRange
  deriving DecidableEq, Repr

/-- Why a pattern is refused, and at which character. -/
structure Error where
  position : Nat
  kind : ErrorKind
  deriving DecidableEq, Repr

def ErrorKind.message : ErrorKind → String
  | .wildcards => "wildcards are either regular `*` or recursive `**`"
  | .recursiveWildcards => "recursive wildcards must form a single path component"
  | .invalidRange => "invalid range pattern"

def Error.message (e : Error) : String :=
  "Pattern syntax error near position " ++ toString e.position ++ ": " ++ e.kind.message

/-- The members of a set: three characters with a hyphen between them are a range. -/
def readMembers : Text → List GlobMember
  | low :: '-' :: high :: s => .range low high :: readMembers s
  | c :: s => .single c :: readMembers s
  | [] => []

/-- Reads a set after its opening bracket. The first character, also after the
mark that negates, is a member even if it is a closing bracket. -/
def readSet? (s : Text) : Option (GlobToken × Text) :=
  let (negated, s) := match s with
    | '!' :: rest => (true, rest)
    | _ => (false, s)
  match s with
  | [] => none
  | first :: s =>
    match Text.cut (· == ']') s with
    | (_, []) => none
    | (inner, _ :: rest) => some (.set negated (readMembers (first :: inner)), rest)

/-- Adds two stars, which follow each other only once behind other tokens. -/
def addComponents (tokens : List GlobToken) : List GlobToken :=
  if 1 < tokens.length ∧ tokens.getLast? = some .anyComponents then tokens
  else tokens ++ [.anyComponents]

/-- Whether two stars may stand after a character: at the start or after a separator. -/
def startsComponent (previous : Option Char) : Bool := previous.all (· == '/')

/-- Reads tokens from a position on, behind those read before. -/
def readTokens : (fuel : Nat) → (position : Nat) → (previous : Option Char) → List GlobToken →
    Text → Except Error (List GlobToken)
  | 0, _, _, tokens, _ => .ok tokens
  | fuel + 1, position, previous, tokens, s =>
    match s with
    | [] => .ok tokens
    | '*' :: '*' :: '*' :: _ => .error ⟨position + 2, .wildcards⟩
    | '*' :: '*' :: rest =>
      if !startsComponent previous then .error ⟨position - 1, .recursiveWildcards⟩
      else
        match rest with
        | [] => .ok (addComponents tokens)
        | c :: rest =>
          if c = '/' then
            readTokens fuel (position + 3) (some '/') (addComponents tokens) rest
          else .error ⟨position + 2, .recursiveWildcards⟩
    | '*' :: rest => readTokens fuel (position + 1) (some '*') (tokens ++ [.anyText]) rest
    | '?' :: rest => readTokens fuel (position + 1) (some '?') (tokens ++ [.anyChar]) rest
    | '[' :: rest =>
      match readSet? rest with
      | none => .error ⟨position, .invalidRange⟩
      | some (token, after) =>
        readTokens fuel (position + 1 + (rest.length - after.length)) (some ']')
          (tokens ++ [token]) after
    | c :: rest => readTokens fuel (position + 1) (some c) (tokens ++ [.char c]) rest

/-- Reads a pattern. -/
def parse (source : Text) : Except Error Glob := do
  return { source, tokens := ← readTokens source.length 0 none [] source }

/-- Reads several patterns; the first bad one is returned with its error. -/
def parseAll : List Text → Except (Text × Error) (List Glob)
  | [] => .ok []
  | source :: rest =>
    match parse source with
    | .error e => .error (source, e)
    | .ok glob => (parseAll rest).map (glob :: ·)

/-- The message on a bad exclude pattern. -/
def excludeMessage (source : Text) (e : Error) : String :=
  "Invalid exclude pattern " ++ String.ofList (Text.quoted source) ++ ": " ++ e.message

/-- Whether a token that stands for one character admits it. -/
def admits (token : GlobToken) (c : Char) : Bool :=
  match token with
  | .char a => a == c
  | .anyChar => true
  | .set negated members => members.any (·.admits c) != negated
  | .anyText | .anyComponents => false

/-- The ends of a text that a token and an accepted end behind it make up. Two stars
stand for nothing, whole components or all that is left. -/
def endsFrom (token : GlobToken) (s : Text) (ends : Ends) : Ends :=
  match token with
  | .anyText => Ends.many (fun _ => true) s ends
  | .anyComponents =>
    if ends.getLast? == some true then Ends.passing (fun _ => true) s
    else Ends.either ends (Ends.past (· == '/') s ends)
  | token => Ends.one (admits token) s ends

/-- Whether tokens match a whole text. -/
def matchTokens (tokens : List GlobToken) (s : Text) : Bool :=
  Ends.whole (tokens.foldr (fun token => endsFrom token s) (Ends.passing List.isEmpty s))

/-- Whether a pattern matches a text. -/
def isMatch (g : Glob) (s : Text) : Bool := matchTokens g.tokens s

end Glob

end PhpLint
