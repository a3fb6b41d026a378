import PhpLint.Cli.Arguments
import PhpLint.Preset
import PhpLint.Report

/-!
What the commands print: results in the four formats, the list of rules, and the
configuration file that a new project starts with.
-/

namespace PhpLint.Cli

private def lines (ls : List String) : String := ls.foldl (fun text l => text ++ l ++ "\n") ""

private def padded (width : Nat) (s : String) : String :=
  s ++ String.ofList (List.replicate (width - s.length) ' ')

/-- One line for an issue. -/
def compactLine (i : Issue) : String :=
  i.file.display ++ ":" ++ toString i.line ++ ": [" ++ i.code.getD "-" ++ "] " ++ i.message

/-- An issue as a diagnostic with its hint. -/
def diagnosticLines (i : Issue) : List String :=
  ["  × " ++ i.diagnostic] ++ (i.help.map fun help => "  help: " ++ help).toList ++ [""]

/-- A result in a format. -/
def render (r : LintResult) : OutputFormat → String
  | .text => r.report
  | .pretty => lines (r.issues.flatMap diagnosticLines ++ [r.summary])
  | .json => lines [r.toJson.pretty 0]
  | .compact => lines (r.issues.map compactLine)

/-- The codes of a preset's rules. -/
def presetCodes (p : Preset) : String :=
  String.intercalate ", " ((p.rules {}).map Rule.code) ++
    if p = .recommended then " (default)" else ""

private def ruleRow (code name description : String) : String :=
  padded 8 code ++ " " ++ padded 24 name ++ " " ++ description

/-- The list of rules and presets. -/
def ruleList : String :=
  lines (["Available rules:", "", ruleRow "Code" "Name" "Description",
      String.ofList (List.replicate 80 '-')] ++
    (RuleKind.all.map fun k => ruleRow k.code k.name k.description) ++
    ["", "Presets:"] ++
    (Preset.every.map fun p => "  " ++ padded 12 p.name ++ " - " ++ presetCodes p) ++
    ["", "Use --rules to filter specific rules, e.g.:",
      "  phpguard check --rules naming-convention,strict-types",
      "  phpguard check --rules PG020,PG021,PG022"])

def versionText : String := lines ["phpguard 0.3.0"]

def helpText : String :=
  lines ["Static analysis for PHP naming, structure, documentation and typing", "",
    "Usage: phpguard [OPTIONS] <COMMAND>", "",
    "Commands:",
    "  check       Run lint checks",
    "  list-rules  List available rules and presets",
    "  init        Initialize configuration file"]

/-- The name of the file that `init` writes. -/
def configFileName : String := "phpguard.toml"

/-- The configuration that a new project starts with. -/
def starterConfig : String :=
  lines [
    "# phpguard configuration",
    "",
    "# One of: recommended (default), strict, minimal, all",
    "preset = \"recommended\"",
    "",
    "[analyzer]",
    "# Root directory to analyze (default: current directory)",
    "# root = \"./src\"",
    "",
    "# Directory names never descended into",
    "exclude_dirs = [\"vendor\", \"node_modules\", \".git\", \".svn\", \".hg\"]",
    "",
    "# Glob patterns to exclude, relative to the root",
    "exclude = []",
    "",
    "# Respect .gitignore files",
    "respect_gitignore = true",
    "",
    "# Load nested .gitignore files before walking",
    "preload_gitignores = true",
    "",
    "# Rule configurations",
    "# Each rule can be enabled/disabled and tuned",
    "",
    "[rules.class-length]",
    "enabled = true",
    "max_class_length = 500",
    "max_method_length = 50",
    "",
    "[rules.cyclomatic-complexity]",
    "max_complexity = 10",
    "",
    "# Not part of the recommended preset",
    "[rules.psr12-compliance]",
    "enabled = false",
    "max_line_length = 120"]

/-- What `init` prints when it has written the file. -/
def createdText (path : Path) : String :=
  lines ["Created " ++ path.display, "", "Next steps:",
    "  1. Edit " ++ configFileName ++ " to configure rules", "  2. Run: phpguard check"]

end PhpLint.Cli
