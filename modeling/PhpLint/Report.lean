import PhpLint.Issue
import PhpLint.JsonValue

/-!
The result of a run: what every rule found, its text for people, and its form in
the exchange format, which can be read back.
-/

namespace PhpLint

/-- Failures under the paths they are about, in the order of paths. -/
abbrev ErrorTable := List (Path × String)

namespace ErrorTable

/-- Writes a message under a path. The first spelling of a path stays. -/
def insert (path : Path) (message : String) : ErrorTable → ErrorTable
  | [] => [(path, message)]
  | (p, m) :: rest =>
    match path.compare p with
    | .lt => (path, message) :: (p, m) :: rest
    | .eq => (p, message) :: rest
    | .gt => (p, m) :: insert path message rest

/-- Writes entries one after another. -/
def ofEntries (entries : List (Path × String)) : ErrorTable :=
  entries.foldl (fun table (path, message) => insert path message table) []

end ErrorTable

/-- A span of time. -/
structure Duration where
  nanoseconds : Nat := 0
  deriving DecidableEq, Repr

namespace Duration

def ofMilliseconds (n : Nat) : Duration := ⟨n * 1000000⟩

/-- The whole milliseconds of a span. -/
def milliseconds (d : Duration) : Nat := d.nanoseconds / 1000000

end Duration

/-- What one rule found. -/
structure RuleOutcome where
  rule : String
  code : String
  /-- There are no issues. -/
  passed : Bool
  issues : List Issue
  filesChecked : Nat
  errors : ErrorTable
  elapsed : Duration
  deriving DecidableEq, Repr

structure LintResult where
  outcomes : List RuleOutcome
  deriving DecidableEq, Repr

namespace LintResult

def passed (r : LintResult) : Bool := r.outcomes.all RuleOutcome.passed

def totalFiles (r : LintResult) : Nat :=
  r.outcomes.foldl (fun total o => total + o.filesChecked) 0

def issues (r : LintResult) : List Issue := r.outcomes.flatMap RuleOutcome.issues

def errors (r : LintResult) : List (Path × String) := r.outcomes.flatMap RuleOutcome.errors

def issueCount (r : LintResult) : Nat := r.issues.length

def errorCount (r : LintResult) : Nat := r.errors.length

/-- The width of the column of rule names. -/
def nameWidth : Nat := 24

private def pad (s : String) : String :=
  s ++ String.ofList (List.replicate (nameWidth - s.length) ' ')

private def unlines (lines : List String) : String :=
  lines.foldl (fun text line => text ++ line ++ "\n") ""

/-- The line on one rule. -/
def outcomeLine (o : RuleOutcome) : String :=
  let status := if o.passed then "OK" else toString o.issues.length ++ " issue(s)"
  o.code ++ " " ++ pad o.rule ++ " " ++ status ++ " (" ++ toString o.elapsed.milliseconds ++ " ms)"

/-- The line with the sums. -/
def summary (r : LintResult) : String :=
  toString r.outcomes.length ++ " rule(s), " ++ toString r.totalFiles ++ " file check(s), " ++
    toString r.issueCount ++ " issue(s): " ++ if r.passed then "PASSED" else "FAILED"

/-- The report for people: the rules, the issues, the failures, the sum. -/
def report (r : LintResult) : String :=
  let issues := r.issues
  let errors := r.errors
  unlines (r.outcomes.map outcomeLine ++
    (if issues.isEmpty then [] else "" :: issues.map Issue.display) ++
    (if errors.isEmpty then []
      else ["", "Errors:"] ++ errors.map fun (path, m) => "  " ++ path.display ++ ": " ++ m) ++
    ["", r.summary])

end LintResult

namespace JsonValue

/-- The numbers of reports have sixty-four bits. -/
def natLimit : Nat := Nat.pow 2 64

/-- The field of an optional text, which is left out if there is none. -/
def optionalField (name : String) : Option String → List (String × JsonValue)
  | some s => [(name, .string s)]
  | none => []

end JsonValue

/-- The form of an issue in the exchange format. -/
def Issue.toJson (i : Issue) : JsonValue :=
  .object ([("file", .string i.file.display), ("line", .integer i.line),
    ("message", .string i.message)] ++ JsonValue.optionalField "code" i.code ++
    JsonValue.optionalField "rule" i.rule ++ JsonValue.optionalField "help" i.help)

/-- The form of a span of time: its whole milliseconds, or the largest number if they
have too many bits. -/
def Duration.toJson (d : Duration) : JsonValue :=
  .integer (min d.milliseconds (JsonValue.natLimit - 1) : Nat)

/-- The form of failures: the messages under the spellings of the paths. -/
def ErrorTable.toJson (table : ErrorTable) : JsonValue :=
  .object (table.map fun (path, m) => (path.display, .string m))

def RuleOutcome.toJson (o : RuleOutcome) : JsonValue :=
  .object [("rule", .string o.rule), ("code", .string o.code), ("passed", .bool o.passed),
    ("issues", .array (o.issues.map Issue.toJson)), ("files_checked", .integer o.filesChecked),
    ("errors", o.errors.toJson), ("elapsed", o.elapsed.toJson)]

def LintResult.toJson (r : LintResult) : JsonValue :=
  .object [("outcomes", .array (r.outcomes.map RuleOutcome.toJson))]

namespace JsonValue

def nat? : JsonValue → Option Nat
  | .integer (.ofNat n) => if n < natLimit then some n else none
  | _ => none

def string? : JsonValue → Option String
  | .string s => some s
  | _ => none

def bool? : JsonValue → Option Bool
  | .bool b => some b
  | _ => none

def array? : JsonValue → Option (List JsonValue)
  | .array items => some items
  | _ => none

/-- An optional text, which may also be null. -/
def optionalString? : Option JsonValue → Option (Option String)
  | none | some .null => some none
  | some (.string s) => some (some s)
  | some _ => none

end JsonValue

/-- Reads a record with the given fields: an object, in which fields of no meaning
are ignored, or the list of the fields in order. -/
def JsonValue.record? (names : List String) : JsonValue → Option JsonValue
  | .object fields => some (.object fields)
  | .array items => if items.length ≤ names.length then some (.object (names.zip items)) else none
  | _ => none

/-- Reads an issue. -/
def Issue.ofJson? (j : JsonValue) : Option Issue := do
  let j ← j.record? ["file", "line", "message", "code", "rule", "help"]
  return {
    file := Path.ofString (← (← j.field? "file").string?)
    line := ← (← j.field? "line").nat?
    message := ← (← j.field? "message").string?
    code := ← JsonValue.optionalString? (j.field? "code")
    rule := ← JsonValue.optionalString? (j.field? "rule")
    help := ← JsonValue.optionalString? (j.field? "help") }

/-- Reads a span of time. -/
def Duration.ofJson? (j : JsonValue) : Option Duration := j.nat?.map Duration.ofMilliseconds

/-- Reads failures in the order of their spellings. -/
def ErrorTable.ofJson? : JsonValue → Option ErrorTable
  | .object fields => do
    let entries ← fields.mapM fun (name, v) => do return (name, ← v.string?)
    let sorted := entries.mergeSort fun a b => decide (a.1 ≤ b.1)
    return ofEntries (sorted.map fun (name, m) => (Path.ofString name, m))
  | _ => none

def RuleOutcome.ofJson? (j : JsonValue) : Option RuleOutcome := do
  let j ← j.record? ["rule", "code", "passed", "issues", "files_checked", "errors", "elapsed"]
  return {
    rule := ← (← j.field? "rule").string?
    code := ← (← j.field? "code").string?
    passed := ← (← j.field? "passed").bool?
    issues := ← (← (← j.field? "issues").array?).mapM Issue.ofJson?
    filesChecked := ← (← j.field? "files_checked").nat?
    errors := ← ErrorTable.ofJson? (← j.field? "errors")
    elapsed := ← Duration.ofJson? (← j.field? "elapsed") }

def LintResult.ofJson? (j : JsonValue) : Option LintResult := do
  let j ← j.record? ["outcomes"]
  return { outcomes := ← (← (← j.field? "outcomes").array?).mapM RuleOutcome.ofJson? }

end PhpLint
