import PhpLint.Check.Naming
import PhpLint.Proofs.Declaration.ClassNames
import PhpLint.Proofs.Naming

/-!
The new names at which the rules on names hint. Main statement: a hint at a new name for an
ASCII name that a letter leads passes the check that reported the old name, and for no other
ASCII name is there a new one that would.
-/

namespace PhpLint.Check

open Naming

/-- An issue about a name that a check does not accept. It hints at a new name, with a mark in
front, and the check accepts that name if the old one is an ASCII name that a letter leads. -/
structure Renames (issue : Issue) (mark old new : Text) (accepts : Text → Bool) : Prop where
  rejected : accepts old = false
  help_eq : issue.help = some ("rename to `" ++ (mark ++ new).shown ++ "`")
  accepted : Code.isIdentifier old = true → leadsWithLetter old = true → accepts new = true

variable {ctx : FileContext} {issue : Issue}

/-- A hint at what a conversion gives, if the check asks for the convention of it. -/
theorem Renames.of_conversion {mark old new : Text} {accepts : Text → Bool}
    (hold : ¬ accepts old = true)
    (hhelp : issue.help = some ("rename to `" ++ (mark ++ new).shown ++ "`"))
    (hnew : Code.isIdentifier old = true → accepts new = leadsWithLetter old) :
    Renames issue mark old new accepts :=
  ⟨Bool.eq_false_iff.mpr hold, hhelp, fun hident hletter => (hnew hident).trans hletter⟩

theorem renames_of_classNameIssue? {c : ClassDecl} (h : classNameIssue? ctx c = some issue) :
    Renames issue [] c.name (toPascalCase c.name) isPascalCase := by
  simp only [classNameIssue?, Option.ite_none_left_eq_some, Option.some.injEq] at h
  obtain ⟨hname, rfl⟩ := h
  exact .of_conversion hname rfl fun hident => (conversions_conform hident).1

theorem renames_of_functionNameIssue? {f : FunctionDecl}
    (h : functionNameIssue? ctx f = some issue) :
    Renames issue [] f.name (toCamelCase f.name) isCamelCase := by
  simp only [functionNameIssue?, Option.ite_none_left_eq_some, Option.some.injEq,
    Bool.or_eq_true, not_or] at h
  obtain ⟨⟨-, hname⟩, rfl⟩ := h
  exact .of_conversion hname rfl fun hident => (conversions_conform hident).2.1

theorem renames_of_propertyNameIssue? {p : Property}
    (h : propertyNameIssue? ctx p = some issue) :
    Renames issue ['$'] p.name (toCamelCase p.name) isCamelCase := by
  simp only [propertyNameIssue?, Option.ite_none_left_eq_some, Option.some.injEq] at h
  obtain ⟨hname, rfl⟩ := h
  exact .of_conversion hname rfl fun hident => (conversions_conform hident).2.1

theorem renames_of_constantNameIssue? {line : Nat} {name : Text}
    (h : constantNameIssue? ctx line name = some issue) :
    Renames issue [] name (toConstantCase name) isConstantCase := by
  simp only [constantNameIssue?, Option.ite_none_left_eq_some, Option.some.injEq] at h
  obtain ⟨hname, rfl⟩ := h
  exact .of_conversion hname rfl fun hident => (conversions_conform hident).2.2.2

theorem firstOccurrences_eq (names : List Text) : firstOccurrences names = names.eraseDups :=
  ClassDecl.foldl_addName names

theorem renames_of_variableNaming (h : issue ∈ variableNaming ctx) :
    ∃ code ∈ codeLines ctx.lines, ∃ name ∈ misnamedVariables code,
      Renames issue ['$'] name (toCamelCase name) isVariableName := by
  obtain ⟨⟨code, line⟩, hline, hissue⟩ := List.mem_flatMap.mp h
  obtain ⟨name, hname, rfl⟩ := List.mem_map.mp hissue
  refine ⟨code, (List.mem_zipIdx hline).2.2 ▸ List.getElem_mem _, name, hname, ?_, rfl, ?_⟩
  · rw [misnamedVariables, firstOccurrences_eq, List.mem_eraseDups, List.mem_filter] at hname
    simpa using hname.2
  · intro hident hletter
    rw [isVariableName, (conversions_conform hident).2.1, hletter, Bool.or_true, Bool.true_or]

/-- A conversion gives a name of its convention exactly if a letter leads the name behind its
underscores. So do the hints of the three rules on names: a new name for such a name passes
the check that reported the old one. -/
theorem renames_conform :
    (∀ name, Code.isIdentifier name = true →
      [leadsWithLetter name = true, isPascalCase (toPascalCase name) = true,
        isCamelCase (toCamelCase name) = true, isSnakeCase (toSnakeCase name) = true,
        isConstantCase (toConstantCase name) = true].TFAE) ∧
    (∀ ctx m, ∀ issue ∈ namingConvention ctx m,
      (∃ c ∈ m.classes, classNameIssue? ctx c = some issue ∧
        Renames issue [] c.name (toPascalCase c.name) isPascalCase) ∨
      (∃ f ∈ m.functions, functionNameIssue? ctx f = some issue ∧
        Renames issue [] f.name (toCamelCase f.name) isCamelCase) ∨
      (∃ p ∈ m.properties, propertyNameIssue? ctx p = some issue ∧
        Renames issue ['$'] p.name (toCamelCase p.name) isCamelCase)) ∧
    (∀ ctx, ∀ issue ∈ constantNaming ctx, ∃ line name,
      constantNameIssue? ctx line name = some issue ∧
        Renames issue [] name (toConstantCase name) isConstantCase) ∧
    (∀ ctx, ∀ issue ∈ variableNaming ctx, ∃ code ∈ codeLines ctx.lines,
      ∃ name ∈ misnamedVariables code,
        Renames issue ['$'] name (toCamelCase name) isVariableName) := by
  refine ⟨fun name hident => ?_, fun ctx m issue h => ?_, fun ctx issue h => ?_,
    fun ctx issue => renames_of_variableNaming⟩
  · obtain ⟨hpascal, hcamel, hsnake, hconstant⟩ := conversions_conform hident
    rw [hpascal, hcamel, hsnake, hconstant]
    exact List.tfae_of_forall (leadsWithLetter name = true) _ (by simp)
  · simp only [namingConvention, List.mem_append, List.mem_filterMap] at h
    rcases h with (⟨c, hc, h⟩ | ⟨f, hf, h⟩) | ⟨p, hp, h⟩
    · exact .inl ⟨c, hc, h, renames_of_classNameIssue? h⟩
    · exact .inr (.inl ⟨f, hf, h, renames_of_functionNameIssue? h⟩)
    · exact .inr (.inr ⟨p, hp, h, renames_of_propertyNameIssue? h⟩)
  · obtain ⟨⟨⟨code, text⟩, line⟩, -, h⟩ := List.mem_flatMap.mp h
    obtain ⟨name, -, h⟩ := List.mem_filterMap.mp h
    exact ⟨line, name, h, renames_of_constantNameIssue? h⟩

/-- A file with a misnamed constant, class and variable. -/
def misnamed : FileContext :=
  FileContext.ofFile (Path.ofString "/r/a.php") (Path.ofString "/r")
    (["<?php", "const maxSize = 1;", "class http_client \x7b\x7d", "$Some_value = 2;"].map
      String.toList)

def misnamedClass : ClassDecl where
  name := "http_client".toList
  kind := .ordinary
  startLine := 3

/-- Two names with capitals in a row and digits, of which a letter leads one only, and a file
in which each of the three rules hints at a new name. -/
theorem renames_conform_capitals :
    isConstantCase (toConstantCase "_HTTPClient2Go".toList) = true ∧
      ¬ isSnakeCase (toSnakeCase "__2FAToken".toList) = true ∧
      (∃ issue ∈ namingConvention misnamed { classes := [misnamedClass] },
        issue.help = some "rename to `HttpClient`" ∧
          Renames issue [] misnamedClass.name "HttpClient".toList isPascalCase) ∧
      (∃ issue ∈ constantNaming misnamed, issue.help = some "rename to `MAX_SIZE`" ∧
        ∃ name, Renames issue [] name (toConstantCase name) isConstantCase) ∧
      ∃ issue ∈ variableNaming misnamed, issue.help = some "rename to `$someValue`" ∧
        ∃ name, Renames issue ['$'] name (toCamelCase name) isVariableName := by
  obtain ⟨hconversions, hnaming, hconstants, hvariables⟩ := renames_conform
  refine ⟨((hconversions "_HTTPClient2Go".toList (by decide)).out 0 4).mp (by decide),
    fun h => absurd (((hconversions "__2FAToken".toList (by decide)).out 0 3).mpr h) (by decide),
    ?_, ?_, ?_⟩
  · have hhelp : some "rename to `HttpClient`" ∈
        (namingConvention misnamed { classes := [misnamedClass] }).map Issue.help := by
      decide +kernel
    obtain ⟨issue, hissue, hhelp⟩ := List.mem_map.mp hhelp
    rcases hnaming _ _ issue hissue with ⟨c, hc, -, hrenames⟩ | ⟨f, hf, -⟩ | ⟨p, hp, -⟩
    · obtain rfl := List.mem_singleton.mp hc
      have hnew : toPascalCase misnamedClass.name = "HttpClient".toList := by decide +kernel
      exact ⟨issue, hissue, hhelp, hnew ▸ hrenames⟩
    · exact absurd hf List.not_mem_nil
    · exact absurd hp List.not_mem_nil
  · have hhelp : some "rename to `MAX_SIZE`" ∈ (constantNaming misnamed).map Issue.help := by
      decide +kernel
    obtain ⟨issue, hissue, hhelp⟩ := List.mem_map.mp hhelp
    obtain ⟨-, name, -, hrenames⟩ := hconstants _ issue hissue
    exact ⟨issue, hissue, hhelp, name, hrenames⟩
  · have hhelp : some "rename to `$someValue`" ∈ (variableNaming misnamed).map Issue.help := by
      decide +kernel
    obtain ⟨issue, hissue, hhelp⟩ := List.mem_map.mp hhelp
    obtain ⟨-, -, name, -, hrenames⟩ := hvariables _ issue hissue
    exact ⟨issue, hissue, hhelp, name, hrenames⟩

end PhpLint.Check
