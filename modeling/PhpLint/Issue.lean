import PhpLint.Path

/-!
Issues: what a rule reports about a line of a file.
-/

namespace PhpLint

structure Issue where
  /-- The file, relative to the root of the run. -/
  file : Path
  /-- The line, counted from one. -/
  line : Nat
  message : String
  /-- The code of the rule that reported it. -/
  code : Option String := none
  /-- The name of that rule. -/
  rule : Option String := none
  /-- A hint how to mend it. -/
  help : Option String := none
  deriving DecidableEq, Repr

namespace Issue

/-- Two issues are the same if file, line and message are; the rule is not
looked at. -/
def same (a b : Issue) : Bool :=
  a.file.same b.file && a.line == b.line && a.message == b.message

def display (i : Issue) : String :=
  "[" ++ i.file.display ++ ":" ++ toString i.line ++ "] " ++ i.message

/-- The display with the rule's code in front. -/
def diagnostic (i : Issue) : String :=
  match i.code with
  | some code => "[" ++ code ++ "] " ++ i.display
  | none => i.display

/-- Records the rule. -/
def withRule (i : Issue) (code rule : String) : Issue :=
  { i with code := some code, rule := some rule }

def withHelp (i : Issue) (help : String) : Issue := { i with help := some help }

end Issue

end PhpLint
