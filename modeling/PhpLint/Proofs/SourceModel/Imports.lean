import PhpLint.Proofs.Code.Uncommented
import PhpLint.Proofs.Declaration.ImportText
import PhpLint.Proofs.SourceModel.Outside

/-!
Import statements under the structural parser. A statement on a line of its own is a
logical line, of which nothing but its imports is recorded. So a file of import statements
has their imports in order, and in any file a statement that stands outside of classes adds
its imports behind those of the lines before it.
-/

namespace PhpLint

section NothingElse

variable (rest : Text)

theorem stripAttributes_use :
    Code.stripAttributes ("use ".toList ++ rest) = "use ".toList ++ rest :=
  Code.stripAttributes_of_dropAttribute? rfl

theorem SourceModel.readNamespace?_use : readNamespace? ("use ".toList ++ rest) = none := rfl

theorem ClassDecl.readHead?_use : readHead? ("use ".toList ++ rest) = none := by
  have hnone : Code.anyKeyword? modifiers.words ("use ".toList ++ rest) = none := rfl
  have hstart : Text.trimStart ("use ".toList ++ rest) = "use ".toList ++ rest := rfl
  rw [readHead?, hstart, Modifier.readAll_of_anyKeyword? hnone]
  rfl

theorem FunctionDecl.readHead?_use : readHead? ("use ".toList ++ rest) = none := by
  have hnone : Code.anyKeyword? modifiers.words ("use ".toList ++ rest) = none := rfl
  have hstart : Text.trimStart ("use ".toList ++ rest) = "use ".toList ++ rest := rfl
  rw [readHead?, hstart, Modifier.readAll_of_anyKeyword? hnone]
  rfl

end NothingElse

namespace SourceModel

/-- Strict types are declared in parentheses. -/
theorem paren_mem_of_readStrictTypes? {s rest : Text} (h : readStrictTypes? s = some rest) :
    '(' ∈ s := by
  simp only [readStrictTypes?, Option.bind_eq_bind, Option.bind_eq_some_iff] at h
  obtain ⟨⟨word, after⟩, hword, inside, hparen, -⟩ := h
  have hsuffix : Text.trimStart after <:+ s :=
    (List.dropWhile_suffix _).trans (Code.keyword?_suffix hword)
  exact hsuffix.subset (by simp [Text.strip?_eq_some_iff.mp hparen])

theorem declaresStrictTypes_of_not_mem {s : Text} (h : '(' ∉ s) :
    declaresStrictTypes s = false := by
  induction s with
  | nil => rfl
  | cons c s ih =>
    rw [declaresStrictTypes, ih fun hmem => h (List.mem_cons_of_mem c hmem), Bool.or_false,
      Option.isSome_eq_false_iff, Option.isNone_iff_eq_none, Option.eq_none_iff_forall_ne_some]
    exact fun rest hread => h (paren_mem_of_readStrictTypes? hread)

end SourceModel

namespace ImportStatement

variable (s : ImportStatement)

theorem text_eq : s.text = "use ".toList ++ (ImportKeyword.lead s.keyword ++ s.body ++ [';']) := by
  simp only [text, List.append_assoc]

/-- The characters of statements. -/
def isStatementPart (c : Char) : Bool := isBodyPart c || c == ';'

theorem isStatementPart_text : ∀ c ∈ s.text, isStatementPart c = true := by
  have hfront : ∀ c ∈ ImportKeyword.lead s.keyword ++ s.body, isStatementPart c = true :=
    fun c hc => by simp [isStatementPart, s.isBodyPart_front c hc]
  rw [s.text_eq]
  exact List.forall_mem_append.mpr ⟨List.all_eq_true.mp rfl,
    List.forall_mem_append.mpr ⟨hfront, List.all_eq_true.mp rfl⟩⟩

theorem braceDelta_body : Code.braceDelta s.body = 0 := by
  have hlisted : Code.braceDelta s.listed = 0 :=
    Code.braceDelta_of_not_mem (fun h => by cases s.isListPart_listed _ h)
      fun h => by cases s.isListPart_listed _ h
  unfold body
  cases s.group with
  | none => exact hlisted
  | some g =>
    have hname : Code.braceDelta g.name.text = 0 :=
      Code.braceDelta_of_not_mem (fun h => by cases g.name.isQualifiedPart_text _ h)
        fun h => by cases g.name.isQualifiedPart_text _ h
    have hcomma : Code.braceDelta (if g.trailingComma then [','] else []) = 0 := by
      cases g.trailingComma <;> rfl
    simp only [Code.braceDelta_append, hname, hlisted, hcomma]
    rfl

theorem braceDelta_text : Code.braceDelta s.text = 0 := by
  have hlead : Code.braceDelta (ImportKeyword.lead s.keyword) = 0 := by
    rcases s.keyword with _ | _ | _ <;> rfl
  simp only [text, Code.braceDelta_append, hlead, s.braceDelta_body]
  rfl

end ImportStatement

namespace LogicalLine

variable (number : Nat) (s : ImportStatement)

/-- The logical line that a statement makes up. -/
def ofImports : LogicalLine where
  first := number
  last := number
  text := s.text
  code := s.text
  braceDelta := 0
  continues := false

/-- A statement has no comment and no literal, so that a scrubber keeps all of it. -/
theorem scrub_imports (keep : Bool) : ({ keepLiterals := keep } : Scrubber).scrub s.text =
    (s.text, { keepLiterals := keep }) := by
  have hplain : Scrubber.Uncommented .code s.text s.text :=
    .plain fun c hc => Text.not_mem_of_class (s.isStatementPart_text c hc) rfl
  rw [hplain.scrub_eq keep]
  cases keep <;> rfl

theorem pending?_imports (next : Option Text) : pending? (ofImports number s) next = none := by
  have hstrip : Code.stripAttributes (ofImports number s).text = s.text := by
    change Code.stripAttributes s.text = s.text
    rw [s.text_eq, stripAttributes_use]
  have hfunction : FunctionDecl.readHead? s.text = none := by
    rw [s.text_eq, FunctionDecl.readHead?_use]
  have hclass : ClassDecl.readHead? s.text = none := by
    rw [s.text_eq, ClassDecl.readHead?_use]
  simp [pending?, hstrip, hfunction, hclass]

/-- A statement is read as one logical line. -/
theorem ofLinesFrom_imports (rest : List Text) :
    ofLinesFrom number {} { keepLiterals := true } none (s.text :: rest) =
      ofImports number s :: ofLinesFrom (number + 1) {} { keepLiterals := true } none rest := by
  have hcode := scrub_imports s false
  have htext := scrub_imports s true
  have hline : single number {} { keepLiterals := true } s.text = ofImports number s := by
    simp only [single, ofImports, hcode, htext, s.braceDelta_text]
    rfl
  rw [ofLinesFrom_single, hline, pending?_imports, hcode, htext]
  rfl

end LogicalLine

namespace SourceModel

namespace Reading

/-- The state in which imports have been recorded, and nothing else. -/
def withImports (r : Reading) (imports : List Import) : Reading :=
  { r with model := { r.model with imports := r.model.imports ++ imports } }

/-- Nothing but its imports is read from a statement outside of classes. -/
theorem step_imports (lines : List Text) {r : Reading} (houtside : r.openClass = none)
    (number : Nat) (s : ImportStatement) :
    step lines r (LogicalLine.ofImports number s) = .ok (r.withImports (s.imports number)) := by
  set line := LogicalLine.ofImports number s with hline
  have htext : line.text = s.text := rfl
  have hspace : readNamespace? line.text = none := by
    rw [htext, s.text_eq, readNamespace?_use]
  have hstrip : Code.stripAttributes line.text = line.text := by
    rw [htext, s.text_eq, stripAttributes_use]
  have hclass (space : Option Text) :
      ClassDecl.read? line.first space (Code.stripAttributes line.text) = none := by
    rw [hstrip, htext, s.text_eq, ClassDecl.read?, ClassDecl.readHead?_use]
    rfl
  have hfunction : r.newFunction? lines line r.depth = none := by
    rw [newFunction?, hstrip, htext, s.text_eq, FunctionDecl.read?, FunctionDecl.readHead?_use]
    rfl
  have himports : r.newImports line = .ok (s.imports number) := by
    simp only [newImports, houtside, htext, s.readStatement?_text]
    exact s.ofStatement_body number
  have hstrict : declaresStrictTypes line.text = false := by
    refine declaresStrictTypes_of_not_mem fun hmem => ?_
    cases s.isStatementPart_text _ hmem
  have hdelta : line.braceDelta = 0 := rfl
  rw [step_outside lines houtside rfl hspace hclass himports, hfunction, hstrict, hdelta]
  simp [withImports]

end Reading

/-- The imports of statements on consecutive lines. -/
def importsFrom (number : Nat) : List ImportStatement → List Import
  | [] => []
  | s :: more => s.imports number ++ importsFrom (number + 1) more

theorem run_imports (lines : List Text) (statements : List ImportStatement) (number : Nat)
    {r : Reading} (houtside : r.openClass = none) :
    (LogicalLine.ofLinesFrom number {} { keepLiterals := true } none
        (statements.map ImportStatement.text)).foldlM (Reading.step lines) r =
      .ok (r.withImports (importsFrom number statements)) := by
  induction statements generalizing number r with
  | nil =>
    rw [importsFrom, Reading.withImports, List.append_nil]
    rfl
  | cons s more ih =>
    rw [List.map_cons, LogicalLine.ofLinesFrom_imports, Reading.run_cons]
    refine ⟨r.withImports (s.imports number), Reading.step_imports lines houtside number s, ?_⟩
    have hopen : (r.withImports (s.imports number)).openClass = none := houtside
    rw [ih (number + 1) hopen]
    simp [Reading.withImports, importsFrom]

/-- A file of import statements has their imports, and nothing else. -/
theorem ofLines_imports (statements : List ImportStatement) :
    ofLines (statements.map ImportStatement.text) =
      .ok { imports := importsFrom 1 statements } := by
  rw [ofLines, LogicalLine.ofLines, run_imports _ statements 1 rfl]
  rfl

variable {lines before after : List Text} {s : ImportStatement} {r : Reading}

/-- A statement that stands where a logical line starts is a logical line of the file. -/
theorem StartsOutside.imports (h : StartsOutside lines (before.length + 1) r)
    (hfile : lines = before ++ s.text :: after) :
    ∃ passed rest, LogicalLine.ofLines lines =
        passed ++ LogicalLine.ofImports (before.length + 1) s :: rest ∧
      passed.foldlM (Reading.step lines) {} = .ok r := by
  obtain ⟨passed, line, rest, hlines, hleft, hrun⟩ := h.ofLinesFrom hfile
  rw [LogicalLine.ofLinesFrom_imports] at hleft
  obtain ⟨rfl, -⟩ := List.cons.inj hleft
  exact ⟨passed, rest, hlines, hrun⟩

/-- Among the imports that are recorded of a file, those of the statement stand together, and
they are the only ones on its line. -/
theorem StartsOutside.imports_eq (h : StartsOutside lines (before.length + 1) r)
    (hfile : lines = before ++ s.text :: after) {model : SourceModel}
    (hmodel : ofLines lines = .ok model) :
    ∃ earlier later, model.imports = earlier ++ s.imports (before.length + 1) ++ later ∧
      (∀ i ∈ earlier, i.line ≤ before.length) ∧ ∀ i ∈ later, before.length + 1 < i.line := by
  obtain ⟨passed, rest, hlines, hpassed⟩ := h.imports hfile
  have hstep := Reading.step_imports lines h.outside (before.length + 1) s
  obtain ⟨earlier, later, hall, hearlier, hlater⟩ :=
    growsByLine_imports.around hlines hpassed hstep rfl hmodel
  exact ⟨earlier, later, hall, fun i hi => Nat.le_of_lt_succ (hearlier i hi), hlater⟩

/-- Import statements are recorded as they were written. A file of statements has the imports
of each, in order, and nothing else. In any file, a statement that starts outside of classes
makes up a logical line, of which its imports are recorded and nothing else; among all imports
of the file they are the only ones on this line. A statement has one import for each of its
items, in order, with the item's name, alias and kind. -/
theorem imports_round_trip :
    (∀ statements : List ImportStatement,
      ofLines (statements.map ImportStatement.text) =
        .ok { imports := importsFrom 1 statements }) ∧
    (∀ (s : ImportStatement) (lines before after : List Text) (r : Reading),
      lines = before ++ s.text :: after → StartsOutside lines (before.length + 1) r →
        (∃ line ∈ LogicalLine.ofLines lines,
          line.first = before.length + 1 ∧ line.last = before.length + 1 ∧
          Reading.step lines r line = .ok (r.withImports (s.imports (before.length + 1)))) ∧
        ∀ model, ofLines lines = .ok model →
          ∃ earlier later, model.imports = earlier ++ s.imports (before.length + 1) ++ later ∧
            (∀ i ∈ earlier, i.line ≤ before.length) ∧
              ∀ i ∈ later, before.length + 1 < i.line) ∧
    ∀ (s : ImportStatement) (number : Nat),
      List.Forall₂ s.Names s.items (s.imports number) := by
  refine ⟨ofLines_imports, ?_, ImportStatement.names_imports⟩
  intro s lines before after r hfile h
  refine ⟨?_, fun model hmodel => h.imports_eq hfile hmodel⟩
  obtain ⟨passed, rest, hlines, -⟩ := h.imports hfile
  exact ⟨LogicalLine.ofImports (before.length + 1) s, by simp [hlines], rfl, rfl,
    Reading.step_imports lines h.outside (before.length + 1) s⟩

/-- The statement `use function \App\Util\{map, const LIMIT as MAX, Str\trim,};`. -/
def utilImports : ImportStatement where
  keyword := some .function
  group := some
    { name := { rooted := true, segments := ["App", "Util"].map String.toList
                nonempty := by decide, named := by decide }
      trailingComma := true }
  items := [
    { keyword := none, asName := none
      name := { rooted := false, segments := ["map".toList]
                nonempty := by decide, named := by decide }
      unreserved := by decide, aliased := by simp },
    { keyword := some .const, asName := some "MAX".toList
      name := { rooted := false, segments := ["LIMIT".toList]
                nonempty := by decide, named := by decide }
      unreserved := by decide, aliased := by decide },
    { keyword := none, asName := none
      name := { rooted := false, segments := ["Str", "trim"].map String.toList
                nonempty := by decide, named := by decide }
      unreserved := by decide, aliased := by simp }]
  nonempty := by decide
  unmarked := by simp

/-- The statement stands below a namespace and a comment, and above another statement and a
class that uses a trait. -/
def utilFile : List Text :=
  ["namespace App;", "// use Old\\Name;"].map String.toList ++ utilImports.text ::
    ["use Log;", "class A \x7b", "  use T;", "\x7d"].map String.toList

/-- The namespace is all that stands before the statement. -/
def utilReading : Reading := { model := { namespaceName := some "App".toList } }

theorem startsOutside_utilFile : StartsOutside utilFile 3 utilReading where
  outside := rfl
  reached := ⟨(LogicalLine.ofLines utilFile).take 2, LogicalLine.ofImports 3 utilImports,
    (LogicalLine.ofLines utilFile).drop 3, by decide +kernel, rfl, rfl, by decide +kernel⟩

theorem imports_round_trip_grouped :
    ∃ model earlier later, ofLines utilFile = .ok model ∧
      model.imports = earlier ++
        [⟨3, "App\\Util\\map".toList, none, .function⟩,
          ⟨3, "App\\Util\\LIMIT".toList, some "MAX".toList, .const⟩,
          ⟨3, "App\\Util\\Str\\trim".toList, none, .function⟩] ++ later ∧
      (∀ i ∈ earlier, i.line ≤ 2) ∧ ∀ i ∈ later, 3 < i.line := by
  have hread : (fun _ => ()) <$> ofLines utilFile = .ok () := by decide +kernel
  obtain ⟨model, hmodel, -⟩ := map_eq_ok_iff.mp hread
  obtain ⟨-, hfile, -⟩ := imports_round_trip
  obtain ⟨-, himports⟩ := hfile utilImports utilFile
    (["namespace App;", "// use Old\\Name;"].map String.toList) _ utilReading rfl
    startsOutside_utilFile
  obtain ⟨earlier, later, hall, hearlier, hlater⟩ := himports model hmodel
  exact ⟨model, earlier, later, hmodel, hall, hearlier, hlater⟩

end SourceModel

end PhpLint
