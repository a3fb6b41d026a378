import PhpLint.Analyzer
import PhpLint.Cli.ConfigSource
import PhpLint.Cli.Output

/-!
Running a command in an environment and a file tree: what is printed, how the program
ends, and the file tree afterwards.
-/

namespace PhpLint.Cli

structure Environment where
  /-- The working directory, an absolute path without links. -/
  cwd : Path
  home : Option Path := none
  /-- The directory of the user's configuration file, in place of the one at home. -/
  configDir : Option Path := none
  /-- The configuration file, unless the arguments name one. -/
  config : Option Path := none
  deriving DecidableEq, Repr

namespace Environment

/-- The directory of the user's configuration file. -/
def globalDir (env : Environment) : Option Path :=
  env.configDir.or (env.home.map (·.join (.ofString ".phpguard")))

/-- A path as an absolute one: inner dots are dropped, steps upwards stay. -/
def absolute (env : Environment) (p : Path) : Path :=
  let names := p.components.filterMap fun
    | .root | .current => none
    | component => some component.spelling
  let start : Path := if p.isAbsolute then ⟨['/']⟩ else env.cwd
  let full := names.foldl (fun q name => q.join ⟨name⟩) start
  if p.spelling.getLast? == some '/' then full.join ⟨[]⟩ else full

end Environment

/-- Why a command fails. -/
inductive Failure where
  | unusableConfig (path : Path)
  | noKnownRules (names : List Text)
  | unusablePattern (error : PatternError)
  | unusableRoot (path : Path)
  | configExists (path : Path)
  | unwritableConfig (cause : FileError)
  /-- A source file whose structure cannot be read ends the program. -/
  | crash (cause : SourceModel.Error)
  deriving DecidableEq, Repr

namespace Failure

/-- The line on a failure; a crash has none. -/
def line? : Failure → Option String
  | .unusableConfig path => some ("Error: Failed to load config: " ++ path.display)
  | .noKnownRules names =>
    some ("Error: No known rules in --rules " ++ String.ofList (Text.join [','] names))
  | .unusablePattern _ => some "Error: Failed to build analyzer"
  | .unusableRoot _ => some "Error: Analysis failed"
  | .configExists path =>
    some ("Error: Configuration file already exists at " ++ path.display ++
      ". Use --force to overwrite.")
  | .unwritableConfig cause => some ("Error: " ++ cause.message)
  | .crash _ => none

def exitCode : Failure → Nat
  | .crash _ => 101
  | _ => 1

end Failure

/-- How a run of the program ends. -/
structure Outcome where
  exitCode : Nat := 0
  output : String := ""
  /-- The line on a failure. -/
  failure : Option String := none
  /-- The file that was written. -/
  written : Option Path := none
  tree : FileTree

/-- The rules with the given names or codes, each once, without unknown ones. -/
def namedRules (settings : Settings) (names : List Text) : List Rule :=
  let wanted := (names.map Text.trim).filter fun name => !name.isEmpty
  wanted.foldl (fun rules name =>
    match settings.buildRule? name with
    | some rule => if rules.any (·.kind == rule.kind) then rules else rules ++ [rule]
    | none => rules) []

/-- The rules to run. -/
def chosenRules (settings : Settings) (names : List Text) : Except Failure (List Rule) :=
  if names.isEmpty then .ok settings.selectedRules
  else
    let rules := namedRules settings names
    if rules.isEmpty then .error (.noKnownRules names) else .ok rules

/-- What `check` asks of the run apart from the settings. -/
def CheckArguments.options (a : CheckArguments) : RunOptions :=
  { root := some a.path
    exclude := a.exclude
    excludeDirs := a.excludeDirs
    respectGitignore := if a.noGitignore then some false else none
    preloadGitignores := if a.noPreload then some false else none }

/-- Checks the files below a path. -/
def check (env : Environment) (t : FileTree) (config : Option Path) (a : CheckArguments) :
    Except Failure LintResult := do
  let source := ConfigSource.locate t (env.absolute a.path) (config.or env.config) env.globalDir
  let some settings := source.load? t env.cwd
    | throw (.unusableConfig (source.path?.getD ⟨[]⟩))
  let rules ← chosenRules settings a.rules
  let analyzer ← (Analyzer.build env.cwd settings rules a.options).mapError .unusablePattern
  (analyzer.analyze t).mapError fun
    | .directoryNotFound path => .unusableRoot path
    | .malformed cause => .crash cause

/-- Writes the configuration of a new project into a directory. -/
def init (env : Environment) (t : FileTree) (force : Bool) (dir : Path) :
    Except Failure (Path × FileTree) := do
  let path := dir.join (.ofString configFileName)
  let place := env.cwd.join path
  if t.pathExists place && !force then throw (.configExists path)
  let t ← (t.write place (Text.utf8 starterConfig.toList)).mapError .unwritableConfig
  return (path, t)

private def failed (t : FileTree) (f : Failure) : Outcome :=
  { exitCode := f.exitCode, failure := f.line?, tree := t }

/-- Runs a command. -/
def Invocation.run (env : Environment) (t : FileTree) (i : Invocation) : Outcome :=
  match i.command with
  | .check a =>
    match check env t i.config a with
    | .ok r => { exitCode := if r.passed then 0 else 1, output := render r a.format, tree := t }
    | .error f => failed t f
  | .listRules => { output := ruleList, tree := t }
  | .init force dir =>
    match init env t force dir with
    | .ok (path, t) => { output := createdText path, written := some path, tree := t }
    | .error f => failed t f

/-- Runs the program on its arguments. Arguments that make no sense end it with code 2. -/
def run (env : Environment) (t : FileTree) (arguments : List Text) : Outcome :=
  match Invocation.parse arguments with
  | .ok i => i.run env t
  | .error .version => { output := versionText, tree := t }
  | .error .help => { output := helpText, tree := t }
  | .error (.invalid _) => { exitCode := 2, tree := t }

end PhpLint.Cli
