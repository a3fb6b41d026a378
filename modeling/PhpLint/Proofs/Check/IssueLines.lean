import PhpLint.Proofs.SourceModel.Documented
import PhpLint.Proofs.SourceModel.WellFormed
import PhpLint.Rule

/-!
Where rules report. Every rule takes the lines of its issues from one of five sources: the
declarations of the model, their doc comments, its imports, the physical lines of the file,
and the first line of a file that declares something. Each source only has lines of the
file, so every issue points at a line that exists, and an empty file has no issues.
-/

namespace PhpLint

namespace SourceModel

/-- A declaration stands on a line of the file. -/
theorem documented_within {lines : List Text} {m : SourceModel} (h : ofLines lines = .ok m)
    {e : Nat × Option DocBlock} (he : e ∈ m.documented) : 1 ≤ e.1 ∧ e.1 ≤ lines.length := by
  have hwell := ofLines_wellFormed h
  simp only [documented, List.mem_append, List.mem_map] at he
  rcases he with (⟨c, hc, rfl⟩ | ⟨f, hf, rfl⟩) | ⟨p, hp, rfl⟩
  · obtain ⟨hpos, hle, -⟩ := hwell.classes.within c hc
    exact ⟨hpos, hle⟩
  · exact hwell.functions.bounded f.line (List.mem_map_of_mem hf)
  · exact hwell.properties.bounded p.line (List.mem_map_of_mem hp)

end SourceModel

namespace Check

/-- The lines on which rules report. -/
inductive Reportable (ctx : FileContext) (m : SourceModel) : Nat → Prop where
  | declaration {line : Nat} {doc : Option DocBlock} (h : (line, doc) ∈ m.documented) :
      Reportable ctx m line
  | docComment {line : Nat} {doc : DocBlock} (h : (line, some doc) ∈ m.documented) :
      Reportable ctx m doc.startLine
  | importLine {i : Import} (h : i ∈ m.imports) : Reportable ctx m i.line
  | physical {index : Nat} (h : index < ctx.lines.length) : Reportable ctx m (index + 1)
  | firstOfFile (h : m.documented ≠ []) : Reportable ctx m 1

/-- Each source of lines has only lines of the file. -/
theorem Reportable.within {ctx : FileContext} {m : SourceModel}
    (h : SourceModel.ofLines ctx.lines = .ok m) {line : Nat} (hline : Reportable ctx m line) :
    1 ≤ line ∧ line ≤ ctx.lines.length := by
  cases hline with
  | declaration he => exact SourceModel.documented_within h he
  | docComment he =>
    have habove := DocBlock.above_of_above? (SourceModel.documented_facts h he).1.symm
    have hwithin := SourceModel.documented_within h he
    have hstart := habove.start_le
    have hend := habove.end_lt
    exact ⟨habove.start_pos, by omega⟩
  | importLine hi =>
    exact (SourceModel.ofLines_wellFormed h).imports.bounded _ (List.mem_map_of_mem hi)
  | physical hindex => exact ⟨by omega, by omega⟩
  | firstOfFile hany =>
    obtain ⟨e, he⟩ := List.exists_mem_of_ne_nil _ hany
    have hwithin := SourceModel.documented_within h he
    exact ⟨by omega, by omega⟩

section Rules

variable {ctx : FileContext} {m : SourceModel} {issue : Issue}

theorem reportable_namingConvention (h : issue ∈ namingConvention ctx m) :
    Reportable ctx m issue.line := by
  simp only [namingConvention, List.mem_append, List.mem_filterMap] at h
  rcases h with (⟨c, hc, hissue⟩ | ⟨f, hf, hissue⟩) | ⟨p, hp, hissue⟩
  · simp only [classNameIssue?, Option.ite_none_left_eq_some, Option.some.injEq] at hissue
    obtain ⟨-, rfl⟩ := hissue
    exact .declaration (SourceModel.mem_documented_of_class hc)
  · simp only [functionNameIssue?, Option.ite_none_left_eq_some, Option.some.injEq] at hissue
    obtain ⟨-, rfl⟩ := hissue
    exact .declaration (SourceModel.mem_documented_of_function hf)
  · simp only [propertyNameIssue?, Option.ite_none_left_eq_some, Option.some.injEq] at hissue
    obtain ⟨-, rfl⟩ := hissue
    exact .declaration (SourceModel.mem_documented_of_property hp)

/-- A rule that goes through lines which are numbered as the lines of the file reports on
lines of the file. -/
theorem reportable_of_zipIdx {α : Type} {xs : List α} (hlength : xs.length ≤ ctx.lines.length)
    {entry : α × Nat} (h : entry ∈ xs.zipIdx 1) : Reportable ctx m entry.2 := by
  obtain ⟨x, number⟩ := entry
  obtain ⟨hpos, hlt, -⟩ := List.mem_zipIdx h
  obtain ⟨index, rfl⟩ := Nat.exists_eq_add_of_le' hpos
  exact .physical (by omega)

theorem reportable_constantNaming (h : issue ∈ constantNaming ctx) :
    Reportable ctx m issue.line := by
  obtain ⟨⟨⟨code, text⟩, line⟩, hline, hissue⟩ := List.mem_flatMap.mp h
  obtain ⟨name, -, hissue⟩ := List.mem_filterMap.mp hissue
  simp only [constantNameIssue?, Option.ite_none_left_eq_some, Option.some.injEq] at hissue
  obtain ⟨-, rfl⟩ := hissue
  exact reportable_of_zipIdx (by simp [codeLines, commentFreeLines]) hline

theorem reportable_variableNaming (h : issue ∈ variableNaming ctx) :
    Reportable ctx m issue.line := by
  obtain ⟨⟨code, line⟩, hline, hissue⟩ := List.mem_flatMap.mp h
  obtain ⟨name, -, rfl⟩ := List.mem_map.mp hissue
  exact reportable_of_zipIdx (by simp [codeLines]) hline

theorem reportable_openingTag (h : issue ∈ openingTagIssues ctx) :
    Reportable ctx m issue.line := by
  unfold openingTagIssues at h
  split at h
  · simp at h
  · rename_i first rest hlines
    split at h
    · simp at h
    · obtain rfl := List.mem_singleton.mp h
      have hfirst : 0 < ctx.lines.length := by simp [hlines]
      exact .physical hfirst

theorem reportable_declarePlace (h : issue ∈ declarePlaceIssues ctx m) :
    Reportable ctx m issue.line := by
  unfold declarePlaceIssues at h
  split at h
  · simp at h
  · split at h
    · rename_i index hindex
      split at h
      · obtain rfl := List.mem_singleton.mp h
        obtain ⟨hlt, -⟩ := List.findIdx?_eq_some_iff_getElem.mp hindex
        rw [List.length_take] at hlt
        exact .physical (Nat.lt_of_lt_of_le hlt (Nat.min_le_right _ _))
      · simp at h
    · simp at h

theorem line_of_lineLayoutIssues {limit number : Nat} {line : Text}
    (h : issue ∈ lineLayoutIssues limit ctx number line) : issue.line = number := by
  unfold lineLayoutIssues at h
  split at h
  · simp at h
  · simp only [List.mem_append, List.mem_ite_nil_right, List.mem_singleton] at h
    rcases h with (⟨-, rfl⟩ | ⟨-, rfl⟩) | ⟨-, rfl⟩ <;> rfl

theorem reportable_layoutCompliance {limit : Nat} (h : issue ∈ layoutCompliance limit ctx m) :
    Reportable ctx m issue.line := by
  simp only [layoutCompliance, List.mem_append] at h
  rcases h with (htag | hplace) | hline
  · exact reportable_openingTag htag
  · exact reportable_declarePlace hplace
  · obtain ⟨⟨number, line⟩, hnumbered, hissue⟩ := List.mem_flatMap.mp hline
    obtain ⟨⟨raw, index⟩, hentry, heq⟩ := List.mem_map.mp hnumbered
    obtain ⟨rfl, rfl⟩ := Prod.mk.inj heq
    rw [line_of_lineLayoutIssues hissue]
    exact reportable_of_zipIdx (Nat.le_refl _) hentry

theorem reportable_classLength {classLimit methodLimit : Nat}
    (h : issue ∈ classLength classLimit methodLimit ctx m) : Reportable ctx m issue.line := by
  simp only [classLength, List.mem_append, List.mem_filterMap, List.mem_filter] at h
  rcases h with ⟨c, hc, hissue⟩ | ⟨f, ⟨hf, -⟩, hissue⟩
  · unfold classLengthIssue? at hissue
    split at hissue
    · simp only [Option.ite_none_left_eq_some, Option.some.injEq] at hissue
      obtain ⟨-, rfl⟩ := hissue
      exact .declaration (SourceModel.mem_documented_of_class hc)
    · simp at hissue
  · simp only [methodLengthIssue?, Option.ite_none_left_eq_some, Option.some.injEq] at hissue
    obtain ⟨-, rfl⟩ := hissue
    exact .declaration (SourceModel.mem_documented_of_function hf)

theorem reportable_cyclomaticComplexity {limit : Nat}
    (h : issue ∈ cyclomaticComplexity limit ctx m) : Reportable ctx m issue.line := by
  obtain ⟨f, hf, hissue⟩ := List.mem_filterMap.mp h
  simp only [Option.ite_none_left_eq_some, Option.some.injEq] at hissue
  obtain ⟨-, rfl⟩ := hissue
  exact .declaration (SourceModel.mem_documented_of_function hf)

theorem reportable_unusedImports (h : issue ∈ unusedImports ctx m) :
    Reportable ctx m issue.line := by
  unfold unusedImports at h
  split at h
  · simp at h
  · obtain ⟨i, hi, rfl⟩ := List.mem_map.mp h
    exact .importLine (List.mem_filter.mp hi).1

theorem reportable_namespaceDeclaration (h : issue ∈ namespaceDeclaration ctx m) :
    Reportable ctx m issue.line := by
  unfold namespaceDeclaration at h
  split at h
  · simp at h
  · rename_i hclasses
    obtain rfl := List.mem_singleton.mp h
    simp only [Bool.or_eq_true, not_or, List.isEmpty_iff] at hclasses
    obtain ⟨c, hc⟩ := List.exists_mem_of_ne_nil _ hclasses.1
    exact .firstOfFile (List.ne_nil_of_mem (SourceModel.mem_documented_of_class hc))

theorem reportable_missingDocblock (h : issue ∈ missingDocblock ctx m) :
    Reportable ctx m issue.line := by
  simp only [missingDocblock, List.mem_append, List.mem_map, List.mem_filter] at h
  rcases h with (⟨c, ⟨hc, -⟩, rfl⟩ | ⟨f, ⟨hf, -⟩, rfl⟩) | ⟨p, ⟨hp, -⟩, rfl⟩
  · exact .declaration (SourceModel.mem_documented_of_class hc)
  · exact .declaration (SourceModel.mem_documented_of_function hf)
  · exact .declaration (SourceModel.mem_documented_of_property hp)

/-- The rules on the tags of a doc comment report on its first line. -/
theorem reportable_docComment {f : FunctionDecl} (hf : f ∈ m.functions) {doc : DocBlock}
    (hdoc : f.doc = some doc) : Reportable ctx m doc.startLine :=
  .docComment (hdoc ▸ SourceModel.mem_documented_of_function hf)

/-- A rule that goes through the documented functions has found its issues in one of them. -/
theorem exists_doc_of_mem_flatMap {issues : FunctionDecl → DocBlock → List Issue}
    (h : issue ∈ m.functions.flatMap fun f => (f.doc.map (issues f)).getD []) :
    ∃ f ∈ m.functions, ∃ doc, f.doc = some doc ∧ issue ∈ issues f doc := by
  obtain ⟨f, hf, hissue⟩ := List.mem_flatMap.mp h
  cases hdoc : f.doc with
  | none => simp [hdoc] at hissue
  | some doc => exact ⟨f, hf, doc, hdoc, by simpa [hdoc] using hissue⟩

theorem reportable_paramDoc (h : issue ∈ paramDoc ctx m) : Reportable ctx m issue.line := by
  obtain ⟨f, hf, doc, hdoc, hissue⟩ := exists_doc_of_mem_flatMap h
  simp only [paramDocIssues, List.mem_append, List.mem_map] at hissue
  rcases hissue with ⟨name, -, rfl⟩ | ⟨name, -, rfl⟩
  · exact reportable_docComment hf hdoc
  · exact reportable_docComment hf hdoc

theorem reportable_returnDoc (h : issue ∈ returnDoc ctx m) : Reportable ctx m issue.line := by
  obtain ⟨f, hf, hissue⟩ := List.mem_filterMap.mp h
  obtain ⟨doc, hdoc, hissue⟩ := Option.bind_eq_some_iff.mp hissue
  have hline : issue.line = doc.startLine := by
    unfold returnDocIssue? at hissue
    split at hissue
    · simp at hissue
    · simp only [Option.ite_none_left_eq_some, Option.some.injEq] at hissue
      rw [← hissue.2]
      rfl
    · simp only [Option.ite_none_right_eq_some, Option.some.injEq] at hissue
      rw [← hissue.2]
      rfl
  rw [hline]
  exact reportable_docComment (List.mem_filter.mp hf).1 hdoc

theorem reportable_throwsDoc (h : issue ∈ throwsDoc ctx m) : Reportable ctx m issue.line := by
  obtain ⟨f, hf, doc, hdoc, hissue⟩ := exists_doc_of_mem_flatMap h
  obtain ⟨name, -, rfl⟩ := List.mem_map.mp hissue
  exact reportable_docComment hf hdoc

theorem reportable_parameterType (h : issue ∈ parameterType ctx m) :
    Reportable ctx m issue.line := by
  obtain ⟨f, hf, hissue⟩ := List.mem_flatMap.mp h
  obtain ⟨entry, -, rfl⟩ := List.mem_map.mp hissue
  exact .declaration (SourceModel.mem_documented_of_function hf)

theorem reportable_propertyType (h : issue ∈ propertyType ctx m) :
    Reportable ctx m issue.line := by
  obtain ⟨p, hp, rfl⟩ := List.mem_map.mp h
  exact .declaration (SourceModel.mem_documented_of_property (List.mem_filter.mp hp).1)

theorem reportable_returnType (h : issue ∈ returnType ctx m) : Reportable ctx m issue.line := by
  obtain ⟨f, hf, rfl⟩ := List.mem_map.mp h
  exact .declaration (SourceModel.mem_documented_of_function (List.mem_filter.mp hf).1)

theorem reportable_strictTypes (h : issue ∈ strictTypes ctx m) : Reportable ctx m issue.line := by
  unfold strictTypes at h
  split at h
  · simp at h
  · rename_i hdeclares
    obtain rfl := List.mem_singleton.mp h
    simp only [Bool.or_eq_true, not_or, Bool.not_eq_true', Bool.not_eq_false] at hdeclares
    exact .firstOfFile (SourceModel.documented_ne_nil hdeclares.2)

/-- Whatever a rule and its limits are, it reports on lines of one of the sources. -/
theorem reportable_check {r : Rule} (h : issue ∈ r.check ctx m) : Reportable ctx m issue.line := by
  unfold Rule.check at h
  split at h
  · exact reportable_namingConvention h
  · exact reportable_constantNaming h
  · exact reportable_variableNaming h
  · exact reportable_layoutCompliance h
  · exact reportable_classLength h
  · exact reportable_cyclomaticComplexity h
  · exact reportable_unusedImports h
  · exact reportable_namespaceDeclaration h
  · exact reportable_missingDocblock h
  · exact reportable_paramDoc h
  · exact reportable_returnDoc h
  · exact reportable_throwsDoc h
  · exact reportable_parameterType h
  · exact reportable_propertyType h
  · exact reportable_returnType h
  · exact reportable_strictTypes h

end Rules

/-- Every issue of every rule on a file points at a line of that file; a file without lines
has no issues. -/
theorem issues_point_at_lines {ctx : FileContext} {m : SourceModel}
    (h : SourceModel.ofLines ctx.lines = .ok m) (r : Rule) :
    (∀ issue ∈ r.check ctx m, 1 ≤ issue.line ∧ issue.line ≤ ctx.lines.length ∧
      (ctx.line? issue.line).isSome = true) ∧
      (ctx.lines = [] → r.check ctx m = []) := by
  have hwithin (issue : Issue) (hissue : issue ∈ r.check ctx m) :
      1 ≤ issue.line ∧ issue.line ≤ ctx.lines.length :=
    (reportable_check hissue).within h
  constructor
  · intro issue hissue
    obtain ⟨hpos, hle⟩ := hwithin issue hissue
    refine ⟨hpos, hle, ?_⟩
    obtain ⟨index, hindex⟩ := Nat.exists_eq_add_of_le' hpos
    rw [hindex, FileContext.line?, List.getElem?_eq_getElem (by omega), Option.isSome_some]
  · intro hempty
    by_contra hne
    obtain ⟨issue, hissue⟩ := List.exists_mem_of_ne_nil _ hne
    obtain ⟨hpos, hle⟩ := hwithin issue hissue
    rw [hempty] at hle
    simp only [List.length_nil] at hle
    omega

/-- A doc comment names a parameter that the function below it does not have. -/
def misdocumented : FileContext :=
  .ofFile (Path.ofString "/r/a.php") (Path.ofString "/r")
    (["<?php", "/** @param int $a */", "function f(int $b) \x7b\x7d"].map String.toList)

theorem issues_point_at_lines_misdocumented :
    ∃ m, SourceModel.ofLines misdocumented.lines = .ok m ∧
      (Rule.check { kind := .paramDoc } misdocumented m).map Issue.line = [2, 2] ∧
      ∀ issue ∈ Rule.check { kind := .paramDoc } misdocumented m,
        1 ≤ issue.line ∧ issue.line ≤ 3 ∧ (misdocumented.line? issue.line).isSome = true := by
  have hread : (fun m => (Rule.check { kind := .paramDoc } misdocumented m).map Issue.line) <$>
      SourceModel.ofLines misdocumented.lines = .ok [2, 2] := by
    decide +kernel
  obtain ⟨m, hmodel, hlines⟩ := map_eq_ok_iff.mp hread
  exact ⟨m, hmodel, hlines, (issues_point_at_lines hmodel { kind := .paramDoc }).1⟩

end Check

end PhpLint
