import PhpLint.Cli.Run

/-!
The program. It reads the part of the file system that a command may look at into a
file tree, runs the command on the tree, writes the file that the command has written
there, and prints what it says.
-/

namespace PhpLint.Cli.Program

/-- The location of a path without links. -/
def locationOf (p : Path) : Location :=
  (p.components.filterMap fun
    | .name name => some name
    | _ => none).reverse

/-- Whether the content of a file can matter. -/
def isRead (name : Text) : Bool :=
  Discovery.isSource ⟨name⟩ || name == Ignore.fileName ||
    (ConfigSource.globalName :: ConfigSource.projectNames).any (·.toList == name)

/-- Why something is out of reach, as far as that is told apart. -/
def causeOf : IO.Error → FileError
  | .permissionDenied .. => .denied
  | _ => .failed

/-- Puts a file into the tree with what is read from a path, or barred if it cannot be read. -/
def gatherContent (t : FileTree) (l : Location) (source : Path) : IO FileTree := do
  try
    let content ← IO.FS.readBinFile source.display
    return t.insert l (.file content.toList)
  catch e => return (t.insert l (.file [])).bar l (causeOf e)

/-- A name that no file has. -/
def noName : Path := ⟨[Char.ofNat 0]⟩

/-- Reads the entries below a directory down to a number of levels. A directory that cannot
be listed is barred; a link that leads nowhere stays one. -/
def gather : (levels : Nat) → FileTree → Location → IO FileTree
  | 0, t, _ => pure t
  | levels + 1, t, l => do
    let listing ← (do (← IO.FS.realPath l.path.display).readDir : IO _).toBaseIO
    match listing with
    | .error e => return t.bar l (causeOf e)
    | .ok entries => entries.foldlM (fun t entry => do
      let name := entry.fileName.toList
      let here : Location := name :: l
      try
        match (← entry.path.symlinkMetadata).type with
        | .dir => gather levels (t.insert here .dir) here
        | .file =>
          if isRead name then gatherContent t here here.path
          else return t.insert here (.file [])
        | .symlink =>
          try
            let kind := (← entry.path.metadata).type
            let target := Path.ofString (← IO.FS.realPath here.path.display).toString
            let there := locationOf target
            let t := t.insert here (.link target)
            if (t.node? there).isSome then return t
            let t := (target.parent?.map t.makeDirs).getD t
            match kind with
            | .dir => gather levels (t.insert there .dir) there
            | .file => gatherContent t there there.path
            | _ => return t
          catch _ => return t.insert here (.link noName)
        | _ => return t
      catch _ => return t) t

/-- Reads the entries below a path. -/
def gatherBelow (t : FileTree) (p : Path) : IO FileTree := do
  try
    let real := Path.ofString (← IO.FS.realPath p.display).toString
    gather FileTree.maxWalkDepth (t.makeDirs real) (locationOf real)
  catch _ => return t

/-- Reads one file, if there is one. -/
def gatherFile (t : FileTree) (p : Path) : IO FileTree := do
  try
    let .file := (← (← IO.FS.realPath p.display).metadata).type | return t
    let t := (p.parent?.map t.makeDirs).getD t
    match t.resolveNew p with
    | .ok l => gatherContent t l p
    | .error _ => return t
  catch _ => return t

/-- Reads what a command may look at. -/
def gatherFor (env : Environment) (i : Invocation) : IO FileTree := do
  let t := FileTree.makeDirs {} env.cwd
  match i.command with
  | .check a =>
    let start := env.absolute a.path
    let t ← gatherBelow t start
    let names := ConfigSource.projectMarker :: ConfigSource.projectNames
    let around := start.parents.flatMap fun dir => names.map fun name => dir.join (.ofString name)
    let user := env.globalDir.toList.map (·.join (.ofString ConfigSource.globalName))
    let named := (i.config.or env.config).toList.map env.cwd.join
    (around ++ user ++ named).foldlM gatherFile t
  | .listRules => return t
  | .init _ dir =>
    let place := env.cwd.join dir
    try
      let t := if ← (← IO.FS.realPath place.display).isDir then t.makeDirs place else t
      gatherFile t (place.join (.ofString configFileName))
    catch _ => return t

def environment : IO Environment := do
  let path? (name : String) : IO (Option Path) := do return (← IO.getEnv name).map Path.ofString
  return {
    cwd := Path.ofString (← IO.currentDir).toString
    home := ← path? "HOME"
    configDir := ← path? "PHPGUARD_CONFIG_DIR"
    config := ← path? "PHPGUARD_CONFIG" }

end PhpLint.Cli.Program

open PhpLint PhpLint.Cli in
def main (arguments : List String) : IO UInt32 := do
  let env ← Program.environment
  let arguments := arguments.map String.toList
  let tree ← match Invocation.parse arguments with
    | .ok i => Program.gatherFor env i
    | .error _ => pure {}
  let outcome := run env tree arguments
  if let some path := outcome.written then
    let place := env.cwd.join path
    if let .ok content := outcome.tree.read place then
      IO.FS.writeBinFile place.display ⟨content.toArray⟩
  IO.print outcome.output
  if let some line := outcome.failure then IO.eprintln line
  return UInt32.ofNat outcome.exitCode
