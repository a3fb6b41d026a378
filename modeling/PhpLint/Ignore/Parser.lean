import PhpLint.Ignore.Token

/-!
Reading the tokens of an ignore pattern. A pattern is read from left to right with
the branches of the choices that are still open at hand. Two stars stand for
directories where they are a component of their own, and for two single stars
elsewhere.
-/

namespace PhpLint.Ignore

/-- A choice that is still open. -/
structure OpenChoice where
  /-- The tokens in front of it, latest first. -/
  before : List Token
  /-- The branches of it that are complete, latest first. -/
  branches : List (List Token)
  deriving Repr

/-- How far a pattern has been read. -/
structure Reading where
  /-- The tokens of the branch being read, latest first. -/
  current : List Token := []
  /-- The choices around it, innermost first. -/
  choices : List OpenChoice := []
  /-- The character in front. -/
  previous : Option Char := none
  /-- An opening bracket without a closing one has been found; from there on brackets
  are plain text. -/
  plainBrackets : Bool := false
  deriving Repr

namespace Reading

def push (r : Reading) (t : Token) : Reading := { r with current := t :: r.current }

def after (r : Reading) (c : Char) : Reading := { r with previous := some c }

/-- Opens a choice. -/
def openChoice (r : Reading) : Reading :=
  { r with current := [], choices := ⟨r.current, []⟩ :: r.choices }

/-- Ends a branch, or takes the comma as plain text outside of choices. -/
def nextBranch (r : Reading) : Reading :=
  match r.choices with
  | [] => r.push (.literal ',')
  | c :: outer =>
    { r with current := [], choices := ⟨c.before, r.current.reverse :: c.branches⟩ :: outer }

/-- Closes the innermost choice, if there is one. -/
def closeChoice? (r : Reading) : Option Reading :=
  match r.choices with
  | [] => none
  | c :: outer =>
    let branches := (r.current.reverse :: c.branches).reverse
    some { r with current := .choice branches :: c.before, choices := outer }

def pushTwoRuns (r : Reading) : Reading := (r.push .anyRun).push .anyRun

/-- Puts directories in place of the separator in front of two stars. Directories at
the start or the end stay what they are. -/
def pushDirs (r : Reading) (t : Token) : Reading :=
  match r.current with
  | .leadingDirs :: _ | .trailingDirs :: _ => r
  | _ :: front => { r with current := t :: front }
  | [] => r.push t

/-- Whether two stars may follow the character in front: a separator, or inside a
choice also a mark of the choice. -/
def mayStartDirs (r : Reading) : Bool :=
  r.previous == some '/' ||
    (!r.choices.isEmpty && (r.previous == some ',' || r.previous == some '\x7b'))

/-- Reads two stars, with what is behind them; the separator behind them belongs to
them. -/
def stars (r : Reading) (rest : Text) : Reading × Text :=
  let ends := match rest with
    | [] => true
    | c :: _ => !r.choices.isEmpty && (c == ',' || c == '\x7d')
  let plain := (r.pushTwoRuns.after '*', rest)
  if r.current.isEmpty then
    match rest with
    | [] => (r.push .leadingDirs, [])
    | c :: behind =>
      if c = '/' then ((r.push .leadingDirs).after '/', behind) else plain
  else if !r.mayStartDirs then plain
  else if ends then ((r.pushDirs .trailingDirs).after '*', rest)
  else
    match rest with
    | c :: behind =>
      if c = '/' then ((r.pushDirs .innerDirs).after '/', behind) else plain
    | [] => plain

end Reading

/-- How far a set has been read. -/
structure SetReading where
  /-- Its intervals, latest first. -/
  ranges : List CharRange := []
  /-- A hyphen waits for the end of the latest interval. -/
  hyphen : Bool := false

/-- Reads one character of a set; `none` if an interval would end before it starts. -/
def SetReading.step? (r : SetReading) (c : Char) : Option SetReading :=
  match r.ranges with
  | [] => some { ranges := [⟨c, c⟩] }
  | last :: earlier =>
    if r.hyphen then
      if c < last.low then none else some { ranges := ⟨last.low, c⟩ :: earlier }
    else if c = '-' then some { r with hyphen := true }
    else some { ranges := ⟨c, c⟩ :: r.ranges }

/-- The intervals of a complete set; a hyphen at its end is a member. -/
def SetReading.finish (r : SetReading) : List CharRange :=
  (if r.hyphen then ⟨'-', '-'⟩ :: r.ranges else r.ranges).reverse

/-- What an opening bracket turns out to be. -/
inductive SetResult where
  /-- A set, and what is behind it. -/
  | closed (ranges : List CharRange) (rest : Text)
  /-- There is no closing bracket. -/
  | unclosed
  /-- An interval ends before it starts. -/
  | reversed

/-- Reads the characters of a set up to its closing bracket. -/
def readMembers (r : SetReading) : Text → SetResult
  | [] => .unclosed
  | c :: s =>
    if c = ']' ∧ ¬ r.ranges.isEmpty then .closed r.finish s
    else
      match r.step? c with
      | none => .reversed
      | some r => readMembers r s

/-- Reads a set behind its opening bracket: whether it is negated, and its members. -/
def readSet (s : Text) : Bool × SetResult :=
  match s with
  | '!' :: rest | '^' :: rest => (true, readMembers {} rest)
  | _ => (false, readMembers {} s)

/-- Reads a pattern to its end. -/
def readPattern : (fuel : Nat) → Reading → Text → Option Reading
  | 0, r, _ => some r
  | fuel + 1, r, s =>
    match s with
    | [] => some r
    | '*' :: '*' :: rest =>
      let (r, rest) := r.stars rest
      readPattern fuel r rest
    | '*' :: rest => readPattern fuel ((r.push .anyRun).after '*') rest
    | '?' :: rest => readPattern fuel ((r.push .anyByte).after '?') rest
    | '\x7b' :: rest => readPattern fuel (r.openChoice.after '\x7b') rest
    | '\x7d' :: rest => do readPattern fuel ((← r.closeChoice?).after '\x7d') rest
    | ',' :: rest => readPattern fuel (r.nextBranch.after ',') rest
    | '\\' :: c :: rest => readPattern fuel ((r.push (.literal c)).after c) rest
    | ['\\'] => none
    | '[' :: rest =>
      if r.plainBrackets then readPattern fuel ((r.push (.literal '[')).after '[') rest
      else
        match readSet rest with
        | (negated, .closed ranges behind) =>
          readPattern fuel ((r.push (.set negated ranges)).after ']') behind
        | (_, .unclosed) =>
          readPattern fuel (({ r with plainBrackets := true }.push (.literal '[')).after '[') rest
        | (_, .reversed) => none
    | c :: rest => readPattern fuel ((r.push (.literal c)).after c) rest

/-- The tokens of a pattern. There are none if a choice is not closed, or closed
without having been opened, if an interval ends before it starts, and if nothing
follows a backslash. -/
def parseTokens? (pattern : Text) : Option (List Token) := do
  let r ← readPattern pattern.length {} pattern
  if r.choices.isEmpty then some r.current.reverse else none

end PhpLint.Ignore
