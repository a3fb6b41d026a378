import PhpLint.Path

/-!
The arguments of the command line. They are read from left to right, one at a time;
what has been read tells which options the next one may name and whether it is the
value of an option.
-/

namespace PhpLint.Cli

/-- How a result is printed. -/
inductive OutputFormat where
  | text
  | pretty
  | json
  | compact
  deriving DecidableEq, Repr

/-- The format with a name. -/
def OutputFormat.ofName? : String → Option OutputFormat
  | "text" => some .text
  | "pretty" => some .pretty
  | "json" => some .json
  | "compact" => some .compact
  | _ => none

structure CheckArguments where
  path : Path
  format : OutputFormat := .text
  /-- The rules to run; all those that the settings select if there are none. -/
  rules : List Text := []
  exclude : List Text := []
  excludeDirs : List Text := []
  noGitignore : Bool := false
  noPreload : Bool := false
  deriving DecidableEq, Repr

inductive Command where
  | check (arguments : CheckArguments)
  | listRules
  | init (force : Bool) (path : Path)
  deriving DecidableEq, Repr

/-- What the arguments ask for. -/
structure Invocation where
  /-- The configuration file that they name. -/
  config : Option Path
  command : Command
  deriving DecidableEq, Repr

/-- Arguments that make no sense. -/
inductive UsageError where
  | missingCommand
  | unknownCommand (name : Text)
  | unknownOption (name : Text)
  | missingValue
  | unexpectedValue
  | invalidValue (value : Text)
  | repeatedOption
  | unexpectedOperand (operand : Text)
  deriving DecidableEq, Repr

/-- Why no command is run. -/
inductive Halt where
  | version
  | help
  | invalid (error : UsageError)
  deriving DecidableEq, Repr

/-- The names of the commands. -/
inductive CommandName where
  | check
  | listRules
  | init
  deriving DecidableEq, Repr

/-- The command with a name. -/
def CommandName.ofName? : String → Option CommandName
  | "check" => some .check
  | "list-rules" => some .listRules
  | "init" => some .init
  | _ => none

/-- The name of the command that explains the others. -/
def helpName : Text := "help".toList

/-- Whether a text is the name of a command. -/
def isCommandName (name : Text) : Bool :=
  name == helpName || (CommandName.ofName? (String.ofList name)).isSome

inductive OptionName where
  | verbose
  | config
  | help
  | version
  | format
  | rules
  | exclude
  | excludeDir
  | noGitignore
  | noPreload
  | force
  deriving DecidableEq, Repr

namespace OptionName

/-- The options before the command, and those behind it. -/
def available : Option CommandName → List OptionName
  | none => [verbose, config, help, version]
  | some .check =>
    [verbose, config, help, format, rules, exclude, excludeDir, noGitignore, noPreload]
  | some .listRules => [verbose, config, help]
  | some .init => [verbose, config, help, force]

def long : OptionName → String
  | verbose => "verbose"
  | config => "config"
  | help => "help"
  | version => "version"
  | format => "format"
  | rules => "rules"
  | exclude => "exclude"
  | excludeDir => "exclude-dir"
  | noGitignore => "no-gitignore"
  | noPreload => "no-preload"
  | force => "force"

def short? : OptionName → Option Char
  | verbose => some 'v'
  | config => some 'c'
  | help => some 'h'
  | version => some 'V'
  | format => some 'f'
  | exclude => some 'e'
  | _ => none

def takesValue : OptionName → Bool
  | config | format | rules | exclude | excludeDir => true
  | _ => false

/-- Whether an option may be given more than once. -/
def isRepeatable : OptionName → Bool
  | rules | exclude | excludeDir => true
  | _ => false

end OptionName

/-- What has been read of the arguments. -/
structure Parsing where
  command : Option CommandName := none
  /-- The options on this side of the command. -/
  seen : List OptionName := []
  /-- The option whose value comes next. -/
  pending : Option OptionName := none
  /-- Two hyphens have ended the options. -/
  operandsOnly : Bool := false
  /-- Help is asked for, on what is named in these arguments. -/
  topics : Option (List Text) := none
  config : Option Path := none
  path : Option Path := none
  format : OutputFormat := .text
  rules : List Text := []
  exclude : List Text := []
  excludeDirs : List Text := []
  noGitignore : Bool := false
  noPreload : Bool := false
  force : Bool := false
  deriving DecidableEq, Repr

namespace Parsing

def invalid {α : Type} (e : UsageError) : Except Halt α := .error (.invalid e)

/-- A path, which is not empty. -/
def pathValue (value : Text) : Except Halt Path :=
  if value.isEmpty then invalid (.invalidValue value) else .ok ⟨value⟩

/-- Notes that an option is given. -/
def note (p : Parsing) (name : OptionName) : Except Halt Parsing :=
  if !name.isRepeatable && p.seen.contains name then invalid .repeatedOption
  else .ok { p with seen := name :: p.seen }

/-- Applies an option without a value. -/
def applyFlag (p : Parsing) (name : OptionName) : Except Halt Parsing :=
  match name with
  | .version => .error .version
  | .help => .error .help
  | _ => do
    let p ← p.note name
    return match name with
      | .noGitignore => { p with noGitignore := true }
      | .noPreload => { p with noPreload := true }
      | .force => { p with force := true }
      | _ => p

/-- Applies an option with its value. The rules in one value are divided by commas. -/
def applyValue (p : Parsing) (name : OptionName) (value : Text) : Except Halt Parsing := do
  let p ← { p with pending := none }.note name
  match name with
  | .config => return { p with config := some (← pathValue value) }
  | .format =>
    match OutputFormat.ofName? (String.ofList value) with
    | some format => return { p with format }
    | none => invalid (.invalidValue value)
  | .rules => return { p with rules := p.rules ++ Text.splitAtChar ',' value }
  | .exclude => return { p with exclude := p.exclude ++ [value] }
  | .excludeDir => return { p with excludeDirs := p.excludeDirs ++ [value] }
  | _ => invalid .unexpectedValue

/-- Reads the name of a long option, with the value behind an equals sign. -/
def readLong (p : Parsing) (argument : Text) : Except Halt Parsing :=
  let (name, behind) := Text.cut (· == '=') argument
  match (OptionName.available p.command).find? (·.long.toList == name), behind with
  | none, _ => invalid (.unknownOption name)
  | some option, [] =>
    if option.takesValue then .ok { p with pending := some option } else p.applyFlag option
  | some option, _ :: value =>
    if option.takesValue then p.applyValue option value else invalid .unexpectedValue

/-- Reads short options that are written together. What follows the letter of an
option that takes a value is the value, with or without an equals sign. -/
def readShorts (p : Parsing) : Text → Except Halt Parsing
  | [] => .ok p
  | c :: rest =>
    match (OptionName.available p.command).find? (·.short? == some c) with
    | none => invalid (.unknownOption [c])
    | some option =>
      if option.takesValue then
        match rest with
        | [] => .ok { p with pending := some option }
        | '=' :: value => p.applyValue option value
        | value => p.applyValue option value
      else
        match p.applyFlag option with
        | .ok p => readShorts p rest
        | .error halt => .error halt

/-- Reads an argument that is no option: the command first, then a path for the
commands that take one. -/
def readOperand (p : Parsing) (operand : Text) : Except Halt Parsing :=
  match p.command with
  | none =>
    if p.operandsOnly then invalid (.unexpectedOperand operand)
    else if operand = helpName then .ok { p with topics := some [] }
    else
      match CommandName.ofName? (String.ofList operand) with
      | some command => .ok { p with command := some command, seen := [] }
      | none => invalid (.unknownCommand operand)
  | some .listRules => invalid (.unexpectedOperand operand)
  | some _ =>
    if p.path.isSome then invalid (.unexpectedOperand operand)
    else do return { p with path := some (← pathValue operand) }

/-- Whether an argument looks like an option. A lone hyphen does not. -/
def looksLikeOption : Text → Bool
  | '-' :: _ :: _ => true
  | _ => false

/-- Reads one argument. -/
def step (p : Parsing) (argument : Text) : Except Halt Parsing :=
  match p.topics, p.pending with
  | some topics, _ => .ok { p with topics := some (topics ++ [argument]) }
  | none, some option =>
    if looksLikeOption argument then invalid .missingValue else p.applyValue option argument
  | none, none =>
    if p.operandsOnly then p.readOperand argument
    else
      match argument with
      | ['-', '-'] => .ok { p with operandsOnly := true }
      | '-' :: '-' :: rest => p.readLong rest
      | '-' :: c :: rest => p.readShorts (c :: rest)
      | _ => p.readOperand argument

/-- The answer to a call for help. There is one on the program and on each command,
and commands have no commands of their own. -/
def explain : List Text → Halt
  | [] => .help
  | topic :: rest =>
    if isCommandName topic then
      match rest with
      | [] => .help
      | inner :: _ => .invalid (.unknownCommand inner)
    else .invalid (.unknownCommand topic)

/-- What the arguments ask for once all of them are read. -/
def finish (p : Parsing) : Except Halt Invocation :=
  let path := p.path.getD ⟨['.']⟩
  match p.topics, p.pending, p.command with
  | some topics, _, _ => .error (explain topics)
  | none, some _, _ => invalid .missingValue
  | none, none, none => invalid .missingCommand
  | none, none, some .check =>
    .ok {
      config := p.config
      command := .check {
        path, format := p.format, rules := p.rules, exclude := p.exclude
        excludeDirs := p.excludeDirs, noGitignore := p.noGitignore, noPreload := p.noPreload } }
  | none, none, some .listRules => .ok { config := p.config, command := .listRules }
  | none, none, some .init => .ok { config := p.config, command := .init p.force path }

end Parsing

/-- Reads the arguments. -/
def Invocation.parse (arguments : List Text) : Except Halt Invocation := do
  (← arguments.foldlM Parsing.step {}).finish

end PhpLint.Cli
