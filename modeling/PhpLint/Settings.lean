import PhpLint.Path
import PhpLint.Toml.Document

/-!
Settings of a run, as a configuration document gives them: the preset, how files
are found, and a table for each rule. Keys that mean nothing are ignored; a known
key with a value of the wrong kind spoils the document.
-/

namespace PhpLint

/-- The table of one rule. -/
structure RuleSettings where
  enabled : Option Bool := none
  options : List (Text × Toml.Value) := []

namespace RuleSettings

/-- A non-negative integer option, or else the default. -/
def natOption (r : RuleSettings) (key : String) (default : Nat) : Nat :=
  match Keyed.get? key.toList r.options with
  | some (.integer n) => if 0 ≤ n then n.toNat else default
  | _ => default

end RuleSettings

/-- Which files a run looks at. -/
structure AnalyzerSettings where
  root : Path := Path.ofString "."
  /-- Names of directories that are never entered. -/
  excludeDirs : List Text := ["vendor", "node_modules", ".git", ".svn", ".hg"].map String.toList
  /-- Patterns of files that are left out. -/
  exclude : List Text := []
  respectGitignore : Bool := true
  preloadGitignores : Bool := true
  deriving DecidableEq, Repr

structure Settings where
  preset : Option Text := none
  analyzer : AnalyzerSettings := {}
  rules : Keyed Text RuleSettings := []

namespace Settings

open Toml (Value)

/-- A document that cannot be read, or in which a known key has a value of the
wrong kind. -/
inductive Error where
  | malformed
  | wrongKind
  deriving DecidableEq, Repr

def string? : Value → Except Error Text
  | .string s => .ok s
  | _ => .error .wrongKind

def boolean? : Value → Except Error Bool
  | .boolean b => .ok b
  | _ => .error .wrongKind

def strings? : Value → Except Error (List Text)
  | .array items => items.mapM string?
  | _ => .error .wrongKind

/-- Reads an optional value, which has a default. -/
def readOr {α : Type} (read : Value → Except Error α) (default : α) : Option Value → Except Error α
  | some v => read v
  | none => .ok default

/-- The keys of the analyzer's table, in the order of its fields. -/
def analyzerKeys : List Text :=
  ["root", "exclude_dirs", "exclude", "respect_gitignore", "preload_gitignores"].map String.toList

/-- Reads the analyzer's settings from a way to look fields up by their place. -/
def analyzerFrom (field : Nat → Option Value) : Except Error AnalyzerSettings := do
  let default : AnalyzerSettings := {}
  return {
    root := ← readOr (fun v => Path.mk <$> string? v) default.root (field 0)
    excludeDirs := ← readOr strings? default.excludeDirs (field 1)
    exclude := ← readOr strings? default.exclude (field 2)
    respectGitignore := ← readOr boolean? default.respectGitignore (field 3)
    preloadGitignores := ← readOr boolean? default.preloadGitignores (field 4) }

/-- The key of a date in its form as a table. -/
def datetimeKey : Text := "$__toml_private_datetime".toList

/-- The entries of a table. A date counts as a table that holds its text. -/
def entries? : Value → Except Error (List (Text × Value))
  | .table entries => .ok entries
  | .datetime d => .ok [(datetimeKey, .string d.render)]
  | _ => .error .wrongKind

/-- Reads the analyzer's settings: a table, or a list of the fields in order. -/
def analyzer? : Value → Except Error AnalyzerSettings
  | .array items => analyzerFrom fun i => items[i]?
  | v => do
    let entries ← entries? v
    analyzerFrom fun i => analyzerKeys[i]?.bind fun key => Keyed.get? key entries

mutual

/-- Reads the value of an option. In it, a table that starts with the key of a date has
to be one, and is read as the date. -/
def option? : Value → Except Error Value
  | .array items => .array <$> optionItems? items
  | .table ((key, v) :: rest) =>
    if key = datetimeKey then
      match v, rest with
      | .string s, [] =>
        match Toml.DateTime.ofText? s with
        | some d => .ok (.datetime d)
        | none => .error .wrongKind
      | _, _ => .error .wrongKind
    else do
      let first ← option? v
      return .table ((key, first) :: (← optionEntries? rest))
  | v => .ok v

def optionItems? : List Value → Except Error (List Value)
  | [] => .ok []
  | v :: rest => do return (← option? v) :: (← optionItems? rest)

/-- Reads the values of options in a table. -/
def optionEntries? : List (Text × Value) → Except Error (List (Text × Value))
  | [] => .ok []
  | (key, v) :: rest => do return (key, ← option? v) :: (← optionEntries? rest)

end

def enabledKey : Text := "enabled".toList

/-- Reads the table of a rule. -/
def rule? (v : Value) : Except Error RuleSettings := do
  let entries ← entries? v
  let enabled ← match Keyed.get? enabledKey entries with
    | some v => some <$> boolean? v
    | none => .ok none
  return { enabled, options := ← optionEntries? (entries.filter (·.1 ≠ enabledKey)) }

/-- Reads the tables of all rules. -/
def rules? (v : Value) : Except Error (Keyed Text RuleSettings) := do
  (← entries? v).mapM fun (key, v) => do return (key, ← rule? v)

/-- Reads settings from the entries of a document. -/
def ofEntries (entries : List (Text × Value)) : Except Error Settings := do
  let preset ← match Keyed.get? "preset".toList entries with
    | some v => some <$> string? v
    | none => .ok none
  return {
    preset
    analyzer := ← readOr analyzer? {} (Keyed.get? "analyzer".toList entries)
    rules := ← readOr rules? [] (Keyed.get? "rules".toList entries) }

/-- Reads settings from a document. -/
def parse (document : Text) : Except Error Settings :=
  match Toml.parse? document with
  | some entries => ofEntries entries
  | none => .error .malformed

/-- The table of a rule, looked up by the rule's exact name. -/
def rule (s : Settings) (name : String) : Option RuleSettings := s.rules.get? name.toList

/-- Rules run unless their table turns them off. -/
def isRuleEnabled (s : Settings) (name : String) : Bool :=
  match s.rule name with
  | some r => r.enabled.getD true
  | none => true

end Settings

end PhpLint
