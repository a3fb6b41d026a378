import Mathlib.Tactic.Set
import PhpLint.Proofs.LogicalLine.Split
import PhpLint.Proofs.SourceModel.Steps

/-!
Lines that stand outside of classes. Such a line adds imports and at most one function to
what is recorded; it is said here once what is left of the parser's step then. In a file,
the entries of a line stand behind those of all lines before it, and in front of those of
all lines behind it.
-/

namespace PhpLint.SourceModel

/-- A logical line of the file starts at the given physical line, in plain code and outside of
classes; `r` is what has been recorded before it. -/
structure StartsOutside (lines : List Text) (number : Nat) (r : Reading) : Prop where
  outside : r.openClass = none
  reached : ∃ passed line rest, LogicalLine.ofLines lines = passed ++ line :: rest ∧
    line.first = number ∧ line.continues = false ∧
      passed.foldlM (Reading.step lines) {} = .ok r

/-- The logical line that starts there is the first one of what is left of the file, read by
fresh scrubbers. -/
theorem StartsOutside.ofLinesFrom {lines before left : List Text} {r : Reading}
    (h : StartsOutside lines (before.length + 1) r) (hfile : lines = before ++ left) :
    ∃ passed line rest, LogicalLine.ofLines lines = passed ++ line :: rest ∧
      LogicalLine.ofLinesFrom (before.length + 1) {} { keepLiterals := true } none left =
        line :: rest ∧
      passed.foldlM (Reading.step lines) {} = .ok r := by
  obtain ⟨passed, line, rest, hlines, hfirst, hplain, hrun⟩ := h.reached
  obtain ⟨before', left', hsplit, hfirst', hleft⟩ := LogicalLine.ofLines_split_plain hlines hplain
  have hlength : before.length = before'.length := by omega
  obtain ⟨rfl, rfl⟩ := List.append_inj (hfile.symm.trans hsplit) hlength
  rw [hfirst] at hleft
  exact ⟨passed, line, rest, hlines, hleft, hrun⟩

/-- A list of the model to which every logical line adds entries of its own. -/
structure GrowsByLine {α : Type} (entries : SourceModel → List α) (lineOf : α → Nat) : Prop where
  start : entries {} = []
  finish : ∀ r : Reading, entries r.finish = entries r.model
  step : ∀ {lines : List Text} {r r' : Reading} {line : LogicalLine},
    Reading.step lines r line = .ok r' →
      ∃ new, entries r'.model = entries r.model ++ new ∧ ∀ e ∈ new, lineOf e = line.first

theorem growsByLine_imports : GrowsByLine SourceModel.imports Import.line where
  start := rfl
  finish _ := rfl
  step h := by
    obtain ⟨closed, heffect⟩ := Reading.step_effect h
    exact heffect.imports

theorem growsByLine_functions : GrowsByLine SourceModel.functions FunctionDecl.line where
  start := rfl
  finish _ := rfl
  step h := by
    obtain ⟨closed, heffect⟩ := Reading.step_effect h
    obtain ⟨function, hfunctions, hfacts⟩ := heffect.functions
    exact ⟨function.toList, hfunctions, fun f hf => (hfacts f (Option.mem_toList.mp hf)).line_eq⟩

namespace GrowsByLine

variable {α : Type} {entries : SourceModel → List α} {lineOf : α → Nat} {lines : List Text}

/-- What a run of lines adds stands on these lines. -/
theorem run (h : GrowsByLine entries lineOf) {run : List LogicalLine} {r r' : Reading}
    {start stop : Nat} (hrun : run.foldlM (Reading.step lines) r = .ok r')
    (htiles : LogicalLine.Tiles start run stop) :
    ∃ new, entries r'.model = entries r.model ++ new ∧
      ∀ e ∈ new, start ≤ lineOf e ∧ lineOf e < stop := by
  induction run generalizing r start with
  | nil =>
    obtain rfl := Except.ok.inj hrun
    exact ⟨[], by simp⟩
  | cons line rest ih =>
    obtain ⟨hfirst, hle, hrest⟩ := htiles
    obtain ⟨next, hstep, hnext⟩ := Reading.run_cons.mp hrun
    obtain ⟨own, hown, hline⟩ := h.step hstep
    obtain ⟨new, hnew, hlater⟩ := ih hnext hrest
    have hstop := hrest.le
    refine ⟨own ++ new, by rw [hnew, hown, List.append_assoc], ?_⟩
    intro e he
    rcases List.mem_append.mp he with he | he
    · have hat := hline e he
      omega
    · have hbehind := hlater e he
      omega

/-- Of the entries of a file, those of one line come between those of the lines before it
and those of the lines behind it. -/
theorem around (h : GrowsByLine entries lineOf) {passed rest : List LogicalLine}
    {line : LogicalLine} {r next : Reading} {new : List α} {model : SourceModel}
    (hlines : LogicalLine.ofLines lines = passed ++ line :: rest)
    (hpassed : passed.foldlM (Reading.step lines) {} = .ok r)
    (hstep : Reading.step lines r line = .ok next)
    (hnew : entries next.model = entries r.model ++ new) (hmodel : ofLines lines = .ok model) :
    ∃ earlier later, entries model = earlier ++ new ++ later ∧
      (∀ e ∈ earlier, lineOf e < line.first) ∧ ∀ e ∈ later, line.last < lineOf e := by
  have htiles := (LogicalLine.cuts_ofLines lines).tiles
  obtain ⟨last, hrun, rfl⟩ := ofLines_eq_ok_iff.mp hmodel
  rw [hlines] at htiles hrun
  obtain ⟨r', hrun', hrest⟩ := Reading.run_append.mp hrun
  obtain rfl := Except.ok.inj (hpassed.symm.trans hrun')
  obtain ⟨next', hnext, hrest⟩ := Reading.run_cons.mp hrest
  obtain rfl := Except.ok.inj (hstep.symm.trans hnext)
  obtain ⟨earlier, hearlier, hbefore⟩ := h.run hpassed htiles.before
  obtain ⟨later, hlater, hbehind⟩ := h.run hrest htiles.behind
  have hstart : entries ({} : Reading).model = [] := h.start
  rw [hstart, List.nil_append] at hearlier
  refine ⟨earlier, later, ?_, fun e he => (hbefore e he).2, fun e he => (hbehind e he).1⟩
  rw [h.finish, hlater, hnew, hearlier]

end GrowsByLine

namespace Reading

/-- A line that starts in plain code and declares no namespace appends what it declares to what
is recorded, opens or carries on a class, and closes it if it leads out of it. -/
theorem step_plain (lines : List Text) {r : Reading} {line : LogicalLine}
    (hplain : line.continues = false) (hspace : readNamespace? line.text = none)
    {imports : List Import} (himports : r.newImports line = .ok imports) :
    step lines r line = .ok (closeClass
      { depth := r.depth + line.braceDelta
        openClass := r.nextClass lines line r.depth
        model :=
          { r.model with
            strictTypes := r.model.strictTypes || declaresStrictTypes line.text
            imports := r.model.imports ++ imports
            properties := r.model.properties ++ r.newProperties lines line r.depth
            functions := r.model.functions ++ (r.newFunction? lines line r.depth).toList } }
      line) := by
  set r' : Reading := { r with depth := r.depth + line.braceDelta } with hr'
  have hnew : r'.newImports line = .ok imports := himports
  have hnext : r'.nextClass lines line r.depth = r.nextClass lines line r.depth := by
    simp only [nextClass, readNamespace, hspace, hr']
  have hproperties : r'.newProperties lines line r.depth = r.newProperties lines line r.depth := rfl
  have hfunction : r'.newFunction? lines line r.depth = r.newFunction? lines line r.depth := rfl
  have hheader : ((r'.readStrictTypes line).readNamespace line).model =
      { r.model with strictTypes := r.model.strictTypes || declaresStrictTypes line.text } := by
    unfold readNamespace readStrictTypes
    rw [hspace]
    cases hstrict : declaresStrictTypes line.text <;> simp [hr']
  rw [step, hplain]
  simp only [Bool.false_eq_true, if_false, ← hr', readDeclarations_eq, hnew, hnext, hproperties,
    hfunction, hheader]
  rfl

/-- Outside of classes, a line that declares neither a namespace nor a class adds its imports
and its function to what is recorded, and at most strict types besides. -/
theorem step_outside (lines : List Text) {r : Reading} (houtside : r.openClass = none)
    {line : LogicalLine} (hplain : line.continues = false)
    (hspace : readNamespace? line.text = none)
    (hclass : ∀ space, ClassDecl.read? line.first space (Code.stripAttributes line.text) = none)
    {imports : List Import} (himports : r.newImports line = .ok imports) :
    step lines r line = .ok
      { r with
        depth := r.depth + line.braceDelta
        model :=
          { r.model with
            strictTypes := r.model.strictTypes || declaresStrictTypes line.text
            imports := r.model.imports ++ imports
            functions := r.model.functions ++ (r.newFunction? lines line r.depth).toList } } := by
  have hnext : r.nextClass lines line r.depth = none := by simp [nextClass, houtside, hclass]
  have hproperties : r.newProperties lines line r.depth = [] := by simp [newProperties, houtside]
  rw [step_plain lines hplain hspace himports, hnext, hproperties, List.append_nil, houtside]
  rfl

end Reading

end PhpLint.SourceModel
