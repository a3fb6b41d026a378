import PhpLint.Proofs.LogicalLine.Signature
import PhpLint.Proofs.SourceModel.Outside

/-!
Function signatures under the structural parser. Written on one line or on several, a
signature that stands outside of classes is recorded as one function, with the name, the
parameters and the result type it was written with, and nothing else is recorded of its
lines. The reader of logical lines hands the signature over as one line, and reading the
declarations of that line gives back what has been written.
-/

namespace PhpLint

section NothingElse

variable (rest : Text)

theorem Import.readStatement?_function : readStatement? ("function ".toList ++ rest) = none := rfl

theorem SourceModel.readNamespace?_function :
    readNamespace? ("function ".toList ++ rest) = none := rfl

theorem ClassDecl.read?_function (line : Nat) (space : Option Text) :
    read? line space ("function ".toList ++ rest) = none := by
  have hnone : Code.anyKeyword? modifiers.words ("function ".toList ++ rest) = none := rfl
  have hstart : Text.trimStart ("function ".toList ++ rest) = "function ".toList ++ rest := rfl
  rw [read?, readHead?, hstart, Modifier.readAll_of_anyKeyword? hnone]
  rfl

end NothingElse

namespace SourceModel

namespace Reading

/-- The state in which a function has been recorded, and nothing else but maybe strict types. -/
def withFunction (r : Reading) (delta : Int) (strict : Bool) (f : FunctionDecl) : Reading :=
  { r with
    depth := r.depth + delta
    model := { r.model with strictTypes := strict, functions := r.model.functions ++ [f] } }

/-- Outside of classes, a line that declares a function and neither a namespace, imports nor a
class adds that function to what is recorded, and at most strict types besides. -/
theorem step_function (lines : List Text) {r : Reading} (houtside : r.openClass = none)
    {line : LogicalLine} (hplain : line.continues = false)
    (hspace : readNamespace? line.text = none) (huse : Import.readStatement? line.text = none)
    (hclass : ∀ space, ClassDecl.read? line.first space (Code.stripAttributes line.text) = none)
    {f : FunctionDecl}
    (hread : FunctionDecl.read? line.first none (Code.stripAttributes line.text) = some f) :
    ∃ strict, step lines r line = .ok (r.withFunction line.braceDelta strict
      { f with doc := DocBlock.above? lines line.first }) := by
  have himports : r.newImports line = .ok [] := by simp [newImports, houtside, huse]
  have hfunction : r.newFunction? lines line r.depth =
      some { f with doc := DocBlock.above? lines line.first } := by
    simp [newFunction?, owner?, houtside, hread]
  refine ⟨r.model.strictTypes || declaresStrictTypes line.text, ?_⟩
  rw [step_outside lines houtside hplain hspace hclass himports, hfunction, List.append_nil]
  rfl

/-- Nothing but a function, and maybe strict types, is read from a signature. -/
theorem step_signature (lines : List Text) {r : Reading} (houtside : r.openClass = none)
    (number : Nat) (sig : Signature) (layout : Signature.Layout) :
    ∃ strict, step lines r (LogicalLine.ofSignature number sig layout) =
      .ok (r.withFunction 1 strict (sig.decl number (DocBlock.above? lines number))) := by
  have hread := sig.read?_joined number layout
  have hstrip : Code.stripAttributes (LogicalLine.ofSignature number sig layout).text =
      (LogicalLine.ofSignature number sig layout).text := LogicalLine.stripAttributes_head sig _
  have htext : ∃ rest, (LogicalLine.ofSignature number sig layout).text =
      "function ".toList ++ rest := ⟨_, List.append_assoc _ _ _⟩
  have hplain : (LogicalLine.ofSignature number sig layout).continues = false := rfl
  obtain ⟨rest, htext⟩ := htext
  refine step_function lines houtside hplain ?_ ?_ (fun space => ?_) (by rw [hstrip]; exact hread)
  · rw [htext]
    exact readNamespace?_function rest
  · rw [htext]
    exact Import.readStatement?_function rest
  · rw [hstrip, htext]
    exact ClassDecl.read?_function rest number space

end Reading

variable {lines before after : List Text} {sig : Signature} {layout : Signature.Layout}
  {r : Reading}

/-- A signature that stands where a logical line starts is a logical line of the file. -/
theorem StartsOutside.signature (h : StartsOutside lines (before.length + 1) r)
    (hfile : lines = before ++ (sig.lines layout ++ after)) :
    ∃ passed rest, LogicalLine.ofLines lines =
        passed ++ LogicalLine.ofSignature (before.length + 1) sig layout :: rest ∧
      passed.foldlM (Reading.step lines) {} = .ok r := by
  obtain ⟨passed, line, rest, hlines, hleft, hrun⟩ := h.ofLinesFrom hfile
  rw [LogicalLine.ofLinesFrom_signature] at hleft
  obtain ⟨rfl, -⟩ := List.cons.inj hleft
  exact ⟨passed, rest, hlines, hrun⟩

/-- Of the functions that are recorded of a file, one is that of the signature, and it is the
only one on the lines of the signature. -/
theorem StartsOutside.functions_eq (h : StartsOutside lines (before.length + 1) r)
    (hfile : lines = before ++ (sig.lines layout ++ after)) {model : SourceModel}
    (hmodel : ofLines lines = .ok model) :
    ∃ earlier later, model.functions = earlier ++
        sig.decl (before.length + 1) (DocBlock.above? lines (before.length + 1)) :: later ∧
      (∀ f ∈ earlier, f.line ≤ before.length) ∧
        ∀ f ∈ later, before.length + (sig.lines layout).length < f.line := by
  obtain ⟨passed, rest, hlines, hpassed⟩ := h.signature hfile
  obtain ⟨strict, hstep⟩ := Reading.step_signature lines h.outside (before.length + 1) sig layout
  obtain ⟨earlier, later, hall, hearlier, hlater⟩ :=
    growsByLine_functions.around hlines hpassed hstep rfl hmodel
  refine ⟨earlier, later, by simp [hall], fun f hf => ?_, fun f hf => ?_⟩
  · exact Nat.le_of_lt_succ (hearlier f hf)
  · have hlast := hlater f hf
    simp only [LogicalLine.ofSignature] at hlast
    omega

/-- A signature is recorded as it was written, on one line or on several. A file of nothing
else has this one function. In a longer file, where the signature starts outside of classes,
it makes up a logical line, of which this function is recorded and nothing else; among all
functions of the file it is the only one on these lines. -/
theorem signature_round_trip (sig : Signature) (layout : Signature.Layout) :
    (∃ strict, ofLines (sig.lines layout) =
      .ok { strictTypes := strict, functions := [sig.decl 1 none], finalDepth := 1 }) ∧
    ∀ (lines before after : List Text) (r : Reading),
      lines = before ++ (sig.lines layout ++ after) →
      StartsOutside lines (before.length + 1) r →
        (∃ line ∈ LogicalLine.ofLines lines,
          line.first = before.length + 1 ∧
          line.last = before.length + (sig.lines layout).length ∧
          ∃ strict, Reading.step lines r line =
            .ok (r.withFunction 1 strict
              (sig.decl (before.length + 1) (DocBlock.above? lines (before.length + 1))))) ∧
        ∀ model, ofLines lines = .ok model →
          ∃ earlier later, model.functions = earlier ++
              sig.decl (before.length + 1) (DocBlock.above? lines (before.length + 1)) :: later ∧
            (∀ f ∈ earlier, f.line ≤ before.length) ∧
              ∀ f ∈ later, before.length + (sig.lines layout).length < f.line := by
  refine ⟨?_, ?_⟩
  · have hlines : LogicalLine.ofLines (sig.lines layout) =
        [LogicalLine.ofSignature 1 sig layout] := by
      have hread := LogicalLine.ofLinesFrom_signature 1 sig layout []
      rwa [List.append_nil] at hread
    obtain ⟨strict, hstep⟩ :=
      Reading.step_signature (sig.lines layout) (r := {}) rfl 1 sig layout
    refine ⟨strict, ?_⟩
    rw [ofLines, hlines, List.foldlM_cons, hstep]
    rfl
  · intro lines before after r hfile h
    refine ⟨?_, fun model hmodel => h.functions_eq hfile hmodel⟩
    obtain ⟨passed, rest, hlines, -⟩ := h.signature hfile
    refine ⟨LogicalLine.ofSignature (before.length + 1) sig layout, by simp [hlines], rfl, ?_,
      Reading.step_signature lines h.outside (before.length + 1) sig layout⟩
    simp [LogicalLine.ofSignature]

/-- A default with a comma, a parenthesis and an arrow in it. -/
theorem isDefault_quoted : IsDefault "[',', \")\" => 2]".toList where
  nonempty := by decide
  trimmed := by decide
  single_line := by decide
  uncommented := by decide
  unbraced := List.all_iff_forall_prop.mp (by decide)
  parentheses := by decide
  brackets := by decide
  one_part := by decide

def addSignature : Signature where
  name := "add".toList
  parameters := [
    { name := "a".toList
      type := some { marked := false, members := ["int", "null"].map String.toList
                     nonempty := by decide, qualified := by decide }
      byReference := false, variadic := false, default := none
      named := by decide, unpromoted := by simp; decide, valued := by simp },
    { name := "items".toList
      type := none
      byReference := true, variadic := false, default := some "[',', \")\" => 2]".toList
      named := by decide, unpromoted := by simp, valued := by simpa using isDefault_quoted }]
  returnType := some { marked := true, members := ["A\\B".toList]
                       nonempty := by decide, qualified := by decide }
  named := by decide
  distinct := by decide
  length_le := by decide

def spreadLayout : Signature.Layout := .spread "  ".toList (List.all_iff_forall_prop.mp (by decide))

/-- The function has a doc comment, and a class with a method stands behind it. -/
def addFile : List Text :=
  ["/** Adds. */".toList] ++ (addSignature.lines spreadLayout ++
    ["\x7d", "class A \x7b", "  function f() \x7b\x7d", "\x7d"].map String.toList)

theorem startsOutside_addFile : StartsOutside addFile 2 {} where
  outside := rfl
  reached := ⟨(LogicalLine.ofLines addFile).take 1,
    LogicalLine.ofSignature 2 addSignature spreadLayout, (LogicalLine.ofLines addFile).drop 2,
    by decide +kernel, rfl, rfl, by decide +kernel⟩

theorem signature_round_trip_documented :
    ∃ model earlier later, ofLines addFile = .ok model ∧ model.functions = earlier ++
        addSignature.decl 2 (some (DocBlock.parse "/** Adds. */".toList 1 1)) :: later ∧
      (∀ f ∈ earlier, f.line ≤ 1) ∧ ∀ f ∈ later, 5 < f.line := by
  have hdoc : DocBlock.above? addFile 2 = some (DocBlock.parse "/** Adds. */".toList 1 1) := by
    decide +kernel
  have hread : (fun _ => ()) <$> ofLines addFile = .ok () := by decide +kernel
  obtain ⟨model, hmodel, -⟩ := map_eq_ok_iff.mp hread
  obtain ⟨-, hfile⟩ := signature_round_trip addSignature spreadLayout
  obtain ⟨-, hfunctions⟩ := hfile addFile ["/** Adds. */".toList] _ {} rfl startsOutside_addFile
  obtain ⟨earlier, later, hall, hearlier, hlater⟩ := hfunctions model hmodel
  have hlines : (addSignature.lines spreadLayout).length = 4 := rfl
  rw [hlines] at hlater
  exact ⟨model, earlier, later, hmodel, hdoc ▸ hall, hearlier, hlater⟩

end SourceModel

end PhpLint
