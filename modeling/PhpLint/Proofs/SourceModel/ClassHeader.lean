import PhpLint.Proofs.SourceModel.ClassLines

/-!
Class headers under the structural parser, of classes that stand on one line. The class is
recorded with the clauses that its header has. For a clause that the header does not have, the
names are taken from behind the brace, where a class without a name may have such a clause.
-/

namespace PhpLint.ClassHeader

open SourceModel

variable (h : ClassHeader) (body : Text)

/-- The class with its body, on one line. -/
def oneLine : Text := h.text ++ ' ' :: (body ++ [' ', '\x7d'])

/-- What is behind the brace of the header when comments are taken out. -/
def behind : Text := (Scrubber.scan true .code (' ' :: (body ++ [' ', '\x7d']))).1

variable {h}

/-- The line opens the class, and it is recorded whether or not the braces of the body close it
again. -/
theorem ofLines_oneLine (hfree : h.Unreserved) :
    ∃ model stop, ofLines [h.oneLine body] = .ok model ∧
      model.classes = [{ h.decl 1 none (behind body) with endLine := stop }] := by
  set line := h.line 1 (' ' :: (body ++ [' ', '\x7d'])) with hline
  have hlines : LogicalLine.ofLines [h.oneLine body] = [line] := by
    rw [LogicalLine.ofLines, oneLine, ofLinesFrom_line]
    rfl
  have hstep := Reading.step_header [h.oneLine body] (r := {}) rfl hfree 1
    (' ' :: (body ++ [' ', '\x7d']))
  rw [← hline] at hstep
  have hrun (r : Reading) (hr : Reading.step [h.oneLine body] {} line = .ok r) :
      ofLines [h.oneLine body] = .ok r.finish := by
    refine ofLines_eq_ok_iff.mpr ⟨r, ?_, rfl⟩
    rw [hlines]
    exact Reading.run_cons.mpr ⟨r, hr, rfl⟩
  by_cases hdepth : 0 < line.braceDelta
  · have hinside : 0 < 0 + line.braceDelta := by omega
    rw [Reading.closeClass_of_lt rfl rfl hinside] at hstep
    exact ⟨_, none, hrun _ hstep, rfl⟩
  · have houtside : 0 + line.braceDelta ≤ 0 := by omega
    rw [Reading.closeClass_of_le rfl rfl houtside] at hstep
    exact ⟨_, some 1, hrun _ hstep, rfl⟩

/-- A class on one line is recorded with the parent and the interfaces of its header exactly if
behind the brace nothing is found for a clause that the header does not have. In particular this
is so if `extends` and `implements` are no words of the body. Otherwise the parent or the
interfaces are those that are found there. -/
theorem header_recorded (hfree : h.Unreserved) :
    ∃ model c, ofLines [h.oneLine body] = .ok model ∧ model.classes = [c] ∧ c.name = h.name ∧
      c.parent = (h.parents (behind body)).head? ∧
      c.interfaces =
        ((h.parents (behind body)).tail ++ h.implemented (behind body)).eraseDups ∧
      (c.parent = h.parent.map QualifiedName.text ∧
          c.interfaces = (h.interfaces.map QualifiedName.text).eraseDups ↔
        (h.parent = none → ClassDecl.namesOf (ClassDecl.extends? (behind body)) = []) ∧
          (h.interfaces = [] →
            ClassDecl.namesOf (ClassDecl.implements? (behind body)) = [])) ∧
      ((∀ w ∈ Code.words (behind body),
          w.map Code.foldLetter ∉ ["extends", "implements"].map String.toList) →
        c.parent = h.parent.map QualifiedName.text ∧
          c.interfaces = (h.interfaces.map QualifiedName.text).eraseDups) := by
  obtain ⟨model, stop, hmodel, hclasses⟩ := ofLines_oneLine body hfree
  have hiff := decl_as_written_iff (h := h) 1 none (behind body)
  refine ⟨model, _, hmodel, hclasses, rfl, rfl, rfl, hiff, fun hwords => hiff.mpr ⟨?_, ?_⟩⟩
  · intro _
    rw [ClassDecl.extends?_eq]
    exact ClassDecl.namesOf_findAtWordStart_clauseAt? (by simp) (List.all_eq_true.mp rfl)
      (fun w hw heq => hwords w hw (by simp [heq])) ClassDecl.clause_readParents?
  · intro _
    rw [ClassDecl.implements?_eq]
    exact ClassDecl.namesOf_findAtWordStart_clauseAt? (by simp) (List.all_eq_true.mp rfl)
      (fun w hw heq => hwords w hw (by simp [heq])) ClassDecl.clause_readInterfaces?

/-- A class with both clauses. -/
def cacheHeader : ClassHeader where
  mark := some .final
  name := "Cache".toList
  parent := some { rooted := true, segments := ["Core", "Store"].map String.toList
                   nonempty := by decide, named := by decide }
  interfaces := [
    { rooted := false, segments := ["Sized".toList], nonempty := by simp, named := by decide },
    { rooted := false, segments := ["Sized".toList], nonempty := by simp, named := by decide }]
  named := by decide

/-- A class without a name, with clauses of its own, in a method. -/
def nestedBody : Text :=
  "function f() \x7b return new class extends B implements C \x7b\x7d; \x7d".toList

theorem header_recorded_nested :
    ∃ model c, ofLines [cacheHeader.oneLine nestedBody] = .ok model ∧ model.classes = [c] ∧
      c.name = "Cache".toList ∧ c.parent = some "\\Core\\Store".toList ∧
      c.interfaces = ["Sized".toList] := by
  obtain ⟨model, c, hmodel, hclasses, hname, -, -, hiff, -⟩ :=
    header_recorded nestedBody (h := cacheHeader) (by decide)
  obtain ⟨hparent, hinterfaces⟩ := hiff.mpr ⟨by simp [cacheHeader], by simp [cacheHeader]⟩
  exact ⟨model, c, hmodel, hclasses, hname, hparent, hinterfaces⟩

/-- A class with neither clause. -/
def plainHeader : ClassHeader where
  mark := none
  name := "A".toList
  parent := none
  interfaces := []
  named := by decide

/-- It is recorded with both clauses of the class in its body. -/
theorem parent_of_nested_class :
    plainHeader.oneLine nestedBody = "class A \x7b ".toList ++ nestedBody ++ " \x7d".toList ∧
      (fun m : SourceModel => m.classes.map fun c => (c.name, c.parent, c.interfaces)) <$>
          ofLines [plainHeader.oneLine nestedBody] =
        .ok [("A".toList, some "B".toList, ["C".toList])] :=
  ⟨by decide, by decide +kernel⟩

end PhpLint.ClassHeader
