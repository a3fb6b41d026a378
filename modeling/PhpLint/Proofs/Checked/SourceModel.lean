import PhpLint.Proofs.Checked.Declaration
import PhpLint.Proofs.Checked.DocBlock
import PhpLint.Proofs.LogicalLine.Tiling

/-!
The structural parser with every slice, index and subtraction checked. It keeps the
open class among the recorded classes and refers to it by a number. `index` takes a
reading of the parser to one of these, and every step of the two agrees along it: the
checked step fails exactly where the parser reports reversed braces, and nothing else
is ever out of range.
-/

namespace PhpLint

namespace Checked

/-- The class whose body is being read, by its place among the recorded ones. -/
structure OpenIndex where
  index : Nat
  depth : Int
  bodySeen : Bool
  deriving DecidableEq, Repr

/-- The state between two logical lines. -/
structure Reading where
  depth : Int := 0
  openAt : Option OpenIndex := none
  /-- What is recorded so far, the open class included. -/
  model : SourceModel := {}
  deriving DecidableEq, Repr

namespace Reading

def readStrictTypes (r : Reading) (line : LogicalLine) : Reading :=
  if SourceModel.declaresStrictTypes line.text then
    { r with model := { r.model with strictTypes := true } }
  else r

def readNamespace (r : Reading) (line : LogicalLine) : Reading :=
  match SourceModel.readNamespace? line.text with
  | some name => { r with model := { r.model with namespaceName := some name } }
  | none => r

/-- Replaces the recorded class of a number. -/
def updateClass? (r : Reading) (index : Nat) (f : ClassDecl → ClassDecl) : Option Reading := do
  let c ← r.model.classes[index]?
  return { r with model := { r.model with classes := r.model.classes.set index (f c) } }

def readUse? (r : Reading) (line : LogicalLine) : Option Reading :=
  match r.openAt with
  | some c =>
    (ClassDecl.readTraits line.text).foldlM
      (fun r name => r.updateClass? c.index fun decl => decl.addTrait name) r
  | none =>
    match Import.readStatement? line.text with
    | none => some r
    | some statement => do
      let (group, items) ← splitGroup? statement.body
      let imports := (items.filterMap Import.readItem?).map
        (Import.ofItem line.first statement.kind group)
      return { r with model := { r.model with imports := r.model.imports ++ imports } }

def readClass? (lines : List Text) (r : Reading) (line : LogicalLine) (decl : Text)
    (depth : Int) : Option Reading :=
  if r.openAt.isSome then some r
  else do
    match ← class? line.first r.model.namespaceName decl with
    | none => return r
    | some c =>
      let doc ← above? lines line.first
      let classes := r.model.classes ++ [{ c with doc }]
      let index ← sub? classes.length 1
      return { r with
        openAt := some { index, depth, bodySeen := line.code.contains '{' }
        model := { r.model with classes } }

def readProperties? (lines : List Text) (r : Reading) (line : LogicalLine) (decl : Text)
    (depth : Int) : Option Reading :=
  match r.openAt with
  | some c =>
    if depth = c.depth + 1 then do
      let owner ← r.model.classes[c.index]?
      let properties ← properties? line.first owner.name owner.readonly decl
      let doc ← above? lines line.first
      let properties := properties.map fun p => { p with doc }
      return { r with model := { r.model with properties := r.model.properties ++ properties } }
    else some r
  | none => some r

/-- The name of the class that owns what is declared at a depth. -/
def owner? (r : Reading) (depth : Int) : Option (Option Text) :=
  match r.openAt with
  | some c =>
    if depth = c.depth + 1 then r.model.classes[c.index]?.map fun decl => some decl.name
    else some none
  | none => some none

def readFunction? (lines : List Text) (r : Reading) (line : LogicalLine) (decl : Text)
    (depth : Int) : Option Reading := do
  let owner ← r.owner? depth
  match ← function? line.first owner decl with
  | none => return r
  | some f =>
    let doc ← above? lines line.first
    return { r with model := { r.model with functions := r.model.functions ++ [{ f with doc }] } }

def closeClass? (r : Reading) (line : LogicalLine) : Option Reading :=
  match r.openAt with
  | none => some r
  | some c =>
    if c.depth < r.depth then some { r with openAt := some { c with bodySeen := true } }
    else if c.bodySeen then
      { r with openAt := none }.updateClass? c.index fun decl => decl.close line.last
    else some r

def readDeclarations? (lines : List Text) (r : Reading) (line : LogicalLine) (depth : Int) :
    Option Reading := do
  let r ← ((r.readStrictTypes line).readNamespace line).readUse? line
  let decl ← stripAttributes? line.text
  let r ← r.readClass? lines line decl depth
  let r ← r.readProperties? lines line decl depth
  r.readFunction? lines line decl depth

/-- Reads one logical line. -/
def step? (lines : List Text) (r : Reading) (line : LogicalLine) : Option Reading := do
  let depth := r.depth
  let r := { r with depth := r.depth + line.braceDelta }
  let r ← if line.continues then some r else r.readDeclarations? lines line depth
  r.closeClass? line

def finish (r : Reading) : SourceModel := { r.model with finalDepth := r.depth }

end Reading

/-- The structural model of a file, if nothing is out of range. -/
def ofLines? (lines : List Text) : Option SourceModel :=
  Reading.finish <$> (LogicalLine.ofLines lines).foldlM (Reading.step? lines) {}

end Checked

namespace SourceModel.Reading

/-- The reading with its open class as the last of the recorded ones. -/
def index (r : Reading) : Checked.Reading where
  depth := r.depth
  openAt := r.openClass.map fun c => ⟨r.model.classes.length, c.depth, c.bodySeen⟩
  model := { r.model with classes := r.model.classes ++ (r.openClass.map OpenClass.decl).toList }

theorem readStrictTypes_index (r : Reading) (line : LogicalLine) :
    r.index.readStrictTypes line = (r.readStrictTypes line).index := by
  unfold Checked.Reading.readStrictTypes readStrictTypes
  split <;> rfl

theorem readNamespace_index (r : Reading) (line : LogicalLine) :
    r.index.readNamespace line = (r.readNamespace line).index := by
  unfold Checked.Reading.readNamespace readNamespace
  cases readNamespace? line.text <;> rfl

/-- The open class is found under its number. -/
theorem updateClass?_index {r : Reading} {c : OpenClass} (hopen : r.openClass = some c)
    (f : ClassDecl → ClassDecl) :
    r.index.updateClass? r.model.classes.length f =
      some { r with openClass := some { c with decl := f c.decl } }.index := by
  simp [Checked.Reading.updateClass?, index, hopen]

theorem addTraits_index {r : Reading} {c : OpenClass} (hopen : r.openClass = some c)
    (names : List Text) :
    names.foldlM (fun (r' : Checked.Reading) name =>
        r'.updateClass? r.model.classes.length fun decl => decl.addTrait name) r.index =
      some { r with
        openClass := some { c with decl := names.foldl ClassDecl.addTrait c.decl } }.index := by
  induction names generalizing r c with
  | nil => simp [← hopen]
  | cons name names ih =>
    rw [List.foldlM_cons, updateClass?_index hopen]
    exact ih (r := { r with openClass := some { c with decl := c.decl.addTrait name } }) rfl

theorem readUse?_index (r : Reading) (line : LogicalLine) :
    r.index.readUse? line = (r.readUse line).toOption.map index := by
  cases hopen : r.openClass with
  | some c =>
    have htraits := addTraits_index hopen (ClassDecl.readTraits line.text)
    simpa [Checked.Reading.readUse?, readUse, index, hopen, Except.toOption] using htraits
  | none =>
    cases hstatement : Import.readStatement? line.text with
    | none => simp [Checked.Reading.readUse?, readUse, index, hopen, hstatement, Except.toOption]
    | some statement =>
      cases hgroup : Import.splitGroup statement.body with
      | error e =>
        simp [Checked.Reading.readUse?, readUse, index, hopen, hstatement, Import.ofStatement,
          Checked.splitGroup?_eq, hgroup, Except.toOption, bind, Except.bind]
      | ok parts =>
        simp [Checked.Reading.readUse?, readUse, index, hopen, hstatement, Import.ofStatement,
          Checked.splitGroup?_eq, hgroup, Except.toOption, bind, Except.bind, pure, Except.pure]

theorem readClass?_index {lines : List Text} {line : LogicalLine}
    (hline : line.first ≤ lines.length + 1) (r : Reading) (decl : Text) (depth : Int) :
    r.index.readClass? lines line decl depth =
      some (r.readClass lines line decl depth).index := by
  cases hopen : r.openClass with
  | some c => simp [Checked.Reading.readClass?, readClass, index, hopen]
  | none =>
    cases hclass : ClassDecl.read? line.first r.model.namespaceName decl with
    | none =>
      simp [Checked.Reading.readClass?, readClass, index, hopen, Checked.class?_eq, hclass]
    | some c =>
      simp [Checked.Reading.readClass?, readClass, index, hopen, Checked.class?_eq, hclass,
        Checked.above?_eq hline, Checked.sub?]

theorem readProperties?_index {lines : List Text} {line : LogicalLine}
    (hline : line.first ≤ lines.length + 1) (r : Reading) (decl : Text) (depth : Int) :
    r.index.readProperties? lines line decl depth =
      some (r.readProperties lines line decl depth).index := by
  cases hopen : r.openClass with
  | none => simp [Checked.Reading.readProperties?, readProperties, index, hopen]
  | some c =>
    by_cases hbody : depth = c.depth + 1
    · simp [Checked.Reading.readProperties?, readProperties, index, hopen, hbody,
        Checked.properties?_eq, Checked.above?_eq hline]
    · simp [Checked.Reading.readProperties?, readProperties, index, hopen, hbody]

theorem owner?_index (r : Reading) (depth : Int) :
    r.index.owner? depth = some (r.owner? depth) := by
  cases hopen : r.openClass with
  | none => simp [Checked.Reading.owner?, owner?, index, hopen]
  | some c =>
    by_cases hbody : depth = c.depth + 1
    · simp [Checked.Reading.owner?, owner?, index, hopen, hbody]
    · simp [Checked.Reading.owner?, owner?, index, hopen, hbody]

theorem readFunction?_index {lines : List Text} {line : LogicalLine}
    (hline : line.first ≤ lines.length + 1) (r : Reading) (decl : Text) (depth : Int) :
    r.index.readFunction? lines line decl depth =
      some (r.readFunction lines line decl depth).index := by
  rw [Checked.Reading.readFunction?, owner?_index]
  cases hfunction : FunctionDecl.read? line.first (r.owner? depth) decl with
  | none => simp [Checked.function?_eq, hfunction, readFunction]
  | some f =>
    simp [Checked.function?_eq, hfunction, readFunction, Checked.above?_eq hline, index]

theorem closeClass?_index (r : Reading) (line : LogicalLine) :
    r.index.closeClass? line = some (r.closeClass line).index := by
  cases hopen : r.openClass with
  | none => simp [Checked.Reading.closeClass?, closeClass, index, hopen]
  | some c =>
    by_cases hdeep : c.depth < r.depth
    · simp [Checked.Reading.closeClass?, closeClass, index, hopen, hdeep]
    · by_cases hseen : c.bodySeen = true
      · simp [Checked.Reading.closeClass?, closeClass, index, hopen, hdeep, hseen,
          Checked.Reading.updateClass?]
      · simp [Checked.Reading.closeClass?, closeClass, index, hopen, hdeep, hseen]

theorem readDeclarations?_index {lines : List Text} {line : LogicalLine}
    (hline : line.first ≤ lines.length + 1) (r : Reading) (depth : Int) :
    r.index.readDeclarations? lines line depth =
      (r.readDeclarations lines line depth).toOption.map index := by
  rw [Checked.Reading.readDeclarations?, readStrictTypes_index, readNamespace_index,
    readUse?_index, readDeclarations]
  cases ((r.readStrictTypes line).readNamespace line).readUse line with
  | error e => rfl
  | ok next =>
    simp [Except.toOption, bind, Except.bind, pure, Except.pure, Checked.stripAttributes?_eq,
      readClass?_index hline, readProperties?_index hline, readFunction?_index hline]

/-- One logical line is read alike with the checks and without. -/
theorem step?_index {lines : List Text} {line : LogicalLine}
    (hline : line.first ≤ lines.length + 1) (r : Reading) :
    r.index.step? lines line = (step lines r line).toOption.map index := by
  have hread := readDeclarations?_index hline
    { r with depth := r.depth + line.braceDelta } r.depth
  rw [Checked.Reading.step?, step]
  cases hcontinues : line.continues with
  | true => exact closeClass?_index { r with depth := r.depth + line.braceDelta } line
  | false =>
    change (Checked.Reading.readDeclarations? lines
      (index { r with depth := r.depth + line.braceDelta }) line r.depth).bind _ = _
    rw [hread]
    cases readDeclarations lines { r with depth := r.depth + line.braceDelta } line r.depth with
    | error e => simp [Except.toOption, bind, Except.bind]
    | ok next =>
      simp [Except.toOption, bind, Except.bind, pure, Except.pure, closeClass?_index]

theorem run?_index {lines : List Text} {run : List LogicalLine}
    (hrun : ∀ line ∈ run, line.first ≤ lines.length + 1) (r : Reading) :
    run.foldlM (Checked.Reading.step? lines) r.index =
      (run.foldlM (step lines) r).toOption.map index := by
  induction run generalizing r with
  | nil => rfl
  | cons line run ih =>
    rw [List.foldlM_cons, List.foldlM_cons, step?_index (hrun line List.mem_cons_self)]
    cases step lines r line with
    | error e => rfl
    | ok next => exact ih (fun l hl => hrun l (List.mem_cons_of_mem _ hl)) next

/-- A line that begins in plain code and, outside of any class, imports a group whose
braces are reversed. -/
def ImportsReversed (r : Reading) (line : LogicalLine) : Prop :=
  line.continues = false ∧ r.openClass = none ∧
    ∃ statement, Import.readStatement? line.text = some statement ∧
      Checked.BracesReversed statement.body

theorem newImports_eq_error_iff (r : Reading) (line : LogicalLine) :
    (∃ e, r.newImports line = .error e) ↔
      r.openClass = none ∧ ∃ statement, Import.readStatement? line.text = some statement ∧
        Checked.BracesReversed statement.body := by
  unfold newImports
  cases r.openClass with
  | some c => simp
  | none =>
    cases Import.readStatement? line.text with
    | none => simp
    | some statement =>
      have hgroup : (∃ e, Import.splitGroup statement.body = .error e) ↔
          Checked.BracesReversed statement.body := Checked.splitGroup_eq_error_iff
      cases hsplit : Import.splitGroup statement.body with
      | error e =>
        have hreversed := hgroup.mp ⟨e, hsplit⟩
        simp [Import.ofStatement, hsplit, hreversed, bind, Except.bind]
      | ok parts =>
        have hordered : ¬ Checked.BracesReversed statement.body := by
          rw [← hgroup]
          simp [hsplit]
        simp [Import.ofStatement, hsplit, hordered, bind, Except.bind, pure, Except.pure]

theorem step_eq_error_iff (lines : List Text) {r : Reading} {line : LogicalLine} :
    (∃ e, step lines r line = .error e) ↔ r.ImportsReversed line := by
  have himports := newImports_eq_error_iff { r with depth := r.depth + line.braceDelta } line
  unfold step ImportsReversed
  cases hcontinues : line.continues with
  | true => simp [bind, Except.bind, pure, Except.pure]
  | false =>
    rw [← himports]
    simp only [Bool.false_eq_true, if_false, readDeclarations_eq]
    cases newImports { r with depth := r.depth + line.braceDelta } line with
    | error e => simp [bind, Except.bind, Functor.map, Except.map]
    | ok imports => simp [bind, Except.bind, Functor.map, Except.map, pure, Except.pure]

/-- A run fails at the first line that fails. -/
theorem run_eq_error_iff {lines : List Text} {run : List LogicalLine} {r : Reading} :
    (∃ e, run.foldlM (step lines) r = .error e) ↔
      ∃ passed line rest next, run = passed ++ line :: rest ∧
        passed.foldlM (step lines) r = .ok next ∧ next.ImportsReversed line := by
  constructor
  · rintro ⟨e, herror⟩
    induction run generalizing r with
    | nil => cases herror
    | cons line run ih =>
      rw [List.foldlM_cons] at herror
      cases hstep : step lines r line with
      | error e' => exact ⟨[], line, run, r, rfl, rfl, (step_eq_error_iff lines).mp ⟨e', hstep⟩⟩
      | ok next =>
        rw [hstep] at herror
        obtain ⟨passed, bad, rest, last, rfl, hpassed, hbad⟩ := ih herror
        exact ⟨line :: passed, bad, rest, last, rfl, run_cons.mpr ⟨next, hstep, hpassed⟩, hbad⟩
  · rintro ⟨passed, line, rest, next, rfl, hpassed, hbad⟩
    obtain ⟨e, herror⟩ := (step_eq_error_iff lines).mpr hbad
    refine ⟨e, ?_⟩
    rw [List.foldlM_append, hpassed]
    change (line :: rest).foldlM (step lines) next = _
    rw [List.foldlM_cons, herror]
    rfl

end SourceModel.Reading

/-- The parser with all its slices, indices and subtractions checked returns what the
parser returns, so nothing is ever out of range in a file that has a model. It fails
exactly at a line that begins in plain code and, while no class is open, imports a
group whose last closing brace comes before its first opening one. -/
theorem SourceModel.ofLines_fails_iff_imports_reversed (lines : List Text) :
    Checked.ofLines? lines = (ofLines lines).toOption ∧
      (Checked.ofLines? lines = none ↔
        ∃ passed line rest r, LogicalLine.ofLines lines = passed ++ line :: rest ∧
          passed.foldlM (Reading.step lines) {} = .ok r ∧ r.ImportsReversed line) := by
  have hrange : ∀ line ∈ LogicalLine.ofLines lines, line.first ≤ lines.length + 1 := by
    intro line hline
    have hlt := (LogicalLine.cuts_ofLines lines).tiles.first_lt hline
    omega
  have hrun := Reading.run?_index hrange {}
  have hchecked : Checked.ofLines? lines = (ofLines lines).toOption := by
    change Checked.Reading.finish <$> (LogicalLine.ofLines lines).foldlM _ (Reading.index {}) = _
    rw [hrun, ofLines]
    cases (LogicalLine.ofLines lines).foldlM (Reading.step lines) {} with
    | error e => rfl
    | ok r => rfl
  refine ⟨hchecked, ?_⟩
  rw [hchecked, ← Reading.run_eq_error_iff, ofLines]
  cases (LogicalLine.ofLines lines).foldlM (Reading.step lines) {} with
  | error e => simp [Except.toOption, Functor.map, Except.map]
  | ok r => simp [Except.toOption, Functor.map, Except.map]

end PhpLint
