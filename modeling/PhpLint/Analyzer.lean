import PhpLint.Detector

/-!
Running several rules over the files below a root. The settings of a document can be
amended for one run: exclusions are added to its own, switches replace its own.
-/

namespace PhpLint

/-- What is asked of a run apart from the settings. -/
structure RunOptions where
  /-- The root; the settings have one too. -/
  root : Option Path := none
  exclude : List Text := []
  excludeDirs : List Text := []
  respectGitignore : Option Bool := none
  preloadGitignores : Option Bool := none
  deriving DecidableEq, Repr

/-- Settings with the options of a run. A directory that is excluded already is not
added again. -/
def AnalyzerSettings.withOptions (s : AnalyzerSettings) (o : RunOptions) : AnalyzerSettings :=
  { s with
    exclude := s.exclude ++ o.exclude
    excludeDirs := o.excludeDirs.foldl
      (fun dirs dir => if dirs.contains dir then dirs else dirs ++ [dir]) s.excludeDirs
    respectGitignore := o.respectGitignore.getD s.respectGitignore
    preloadGitignores := o.preloadGitignores.getD s.preloadGitignores }

structure Analyzer where
  root : Path
  rules : List Rule
  discovery : Discovery
  settings : Settings

namespace Analyzer

/-- Prepares a run in a working directory. -/
def build (cwd : Path) (settings : Settings) (rules : List Rule) (options : RunOptions) :
    Except PatternError Analyzer := do
  let root := options.root.getD settings.analyzer.root
  let discovery ← (settings.analyzer.withOptions options).discovery
  return { root := if root.isAbsolute then root else cwd.join root, rules, discovery, settings }

/-- Runs one rule over files. -/
def runRule (t : FileTree) (root : Path) (files : List Path) (rule : Rule) :
    Except DetectError RuleOutcome :=
  let d : Detector := { rule }
  match d.detectFiles t root files with
  | (.error e, _) => .error e
  | (.ok passed, d) =>
    .ok { rule := rule.name, code := rule.code, passed, issues := d.issues
          filesChecked := d.filesChecked, errors := d.errors, elapsed := {} }

/-- Runs the rules that the settings do not turn off over what a discovery found. Entries
that it could not visit leave no trace in the result. -/
def analyzeFound (a : Analyzer) (t : FileTree) (found : DiscoveredFiles) :
    Except DetectError LintResult := do
  if !t.isDir a.root then throw (.directoryNotFound a.root)
  let enabled := a.rules.filter fun rule => a.settings.isRuleEnabled rule.name
  return { outcomes := ← enabled.mapM (runRule t (t.canonical a.root) found.files) }

/-- Finds the files below the root and runs the rules over them. -/
def analyze (a : Analyzer) (t : FileTree) : Except DetectError LintResult :=
  a.analyzeFound t (a.discovery.discover t a.root)

end Analyzer

end PhpLint
