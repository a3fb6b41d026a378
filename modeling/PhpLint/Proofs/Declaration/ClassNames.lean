import PhpLint.Proofs.Declaration.ClassPadding
import PhpLint.Proofs.Declaration.QualifiedName
import PhpLint.Proofs.Keyed

/-!
Lists of class names, as the clauses of a declaration and the lines of its body have them. A
list is read back from what is written of it, and a class keeps each name at its first place.
-/

namespace PhpLint.ClassDecl

/-- Names that are added one by one are kept at their first places. -/
theorem foldl_addName (names : List Text) : names.foldl addName [] = names.eraseDups := by
  induction names using List.reverseRecOn with
  | nil => rfl
  | append_singleton names name ih =>
    rw [List.foldl_concat, ih, Keyed.eraseDups_concat, addName]
    simp only [List.contains_iff_mem, List.mem_eraseDups]

theorem foldl_addName_eraseDups (earlier names : List Text) :
    names.foldl addName earlier.eraseDups = (earlier ++ names).eraseDups := by
  rw [← foldl_addName, ← foldl_addName, List.foldl_append]

theorem foldl_addInterface (names : List Text) (c : ClassDecl) :
    names.foldl addInterface c = { c with interfaces := names.foldl addName c.interfaces } := by
  induction names generalizing c with
  | nil => rfl
  | cons name names ih => rw [List.foldl_cons, ih]; rfl

theorem addParents_eq {c : ClassDecl} (h : c.parent = none) (names : List Text) :
    c.addParents names =
      { c with parent := names.head?, interfaces := names.tail.foldl addName c.interfaces } := by
  cases names with
  | nil =>
    obtain ⟨⟩ := c
    simp only at h
    subst h
    rfl
  | cons parent more =>
    rw [addParents, foldl_addInterface]
    rfl

/-- Qualified names with commas between them are read back. -/
theorem qualifiedNames_join {names : List QualifiedName} (hne : names ≠ []) :
    qualifiedNames (Text.join [',', ' '] (names.map QualifiedName.text)) =
      names.map QualifiedName.text := by
  have hparts : ∀ part ∈ names.map QualifiedName.text, ',' ∉ part ∧ Text.trim part = part := by
    intro part hpart
    obtain ⟨n, -, rfl⟩ := List.mem_map.mp hpart
    refine ⟨fun hc => ?_, n.trimmed_text.trim_eq⟩
    cases n.isQualifiedPart_text ',' hc
  rw [qualifiedNames, Text.map_trim_splitAtChar_join (by decide) (by simpa using hne) hparts,
    List.filter_eq_self]
  intro part hpart
  obtain ⟨n, -, rfl⟩ := List.mem_map.mp hpart
  exact Code.isQualifiedName_text n

end PhpLint.ClassDecl
