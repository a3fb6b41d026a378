import PhpLint.Code.Bracket
import PhpLint.Code.Scrubber

/-!
Function bodies. From the line of a declaration the braces are counted, on their
own, until the first one is closed; a semicolon outside parentheses before any
brace ends a declaration without a body.
-/

namespace PhpLint

/-- Where a body lies, with lines counted from zero. -/
structure Body where
  /-- The line of the declaration. -/
  start : Nat
  /-- The line of the closing brace or of the semicolon, else the last line. -/
  last : Nat
  /-- An opening brace was found. -/
  hasBody : Bool
  /-- The scrubbed text between the braces, line by line. -/
  code : List (Nat × Text)
  deriving DecidableEq, Repr

namespace Body

/-- The number of lines from the declaration to the end. -/
def span (b : Body) : Nat := b.last - b.start + 1

/-- The counters of the scan. -/
structure Counters where
  depth : Int := 0
  parens : Int := 0
  opened : Bool := false
  deriving DecidableEq, Repr

/-- How a line of code ends the scan or lets it go on; the text is the part of
the line inside the body. -/
inductive LineResult where
  | bodyless
  | closed (text : Text)
  | more (counters : Counters) (text : Text)
  deriving DecidableEq, Repr

/-- Puts a character of the body in front. -/
def LineResult.keep (c : Char) : LineResult → LineResult
  | .bodyless => .bodyless
  | .closed text => .closed (c :: text)
  | .more counters text => .more counters (c :: text)

/-- The counters after a character that does not end the scan. -/
def Counters.step (k : Counters) (c : Char) : Counters :=
  match c with
  | '(' => { k with parens := k.parens + 1 }
  | ')' => { k with parens := k.parens - 1 }
  | '{' => { k with depth := k.depth + 1, opened := true }
  | '}' => { k with depth := k.depth - 1 }
  | _ => k

/-- Scans one line of code. -/
def scanLine (k : Counters) : Text → LineResult
  | [] => .more k []
  | c :: s =>
    if c = ';' ∧ k.opened = false ∧ k.parens ≤ 0 then .bodyless
    else if c = '}' ∧ k.opened = true ∧ k.depth = 1 then .closed []
    else
      let rest := scanLine (k.step c) s
      if k.opened then rest.keep c else rest

/-- Scans lines from a number on. The result is whether there is a body, its text,
and the line at which the scan ended, if it did. -/
def scanLines (number : Nat) (scrubber : Scrubber) (k : Counters) :
    List Text → Bool × List (Nat × Text) × Option Nat
  | [] => (k.opened, [], none)
  | line :: rest =>
    let (code, scrubber) := scrubber.scrub line
    match scanLine k code with
    | .bodyless => (false, [], some number)
    | .closed text => (true, [(number, text)], some number)
    | .more k text =>
      let (hasBody, code, last) := scanLines (number + 1) scrubber k rest
      (hasBody, if k.opened then (number, text) :: code else code, last)

/-- The body of the declaration on a line. -/
def scan (lines : List Text) (start : Nat) : Body :=
  let (hasBody, code, last) := scanLines start {} {} (lines.drop start)
  { start, last := last.getD (max (lines.length - 1) start), hasBody, code }

end Body

end PhpLint
