import PhpLint.Declaration.Class
import PhpLint.Declaration.Function
import PhpLint.Proofs.Text.Basic

/-!
The readers of keywords, names, brackets and modifiers leave an end of the text that
they read. So do the readers of the heads of classes and functions.
-/

namespace PhpLint

namespace Code

theorem keyword?_suffix {word s w rest : Text} (h : keyword? word s = some (w, rest)) :
    rest <:+ s :=
  ⟨w, (keyword?_eq_some_iff.mp h).1.symm⟩

theorem anyKeyword?_suffix {words : List Text} {s w rest : Text}
    (h : anyKeyword? words s = some (w, rest)) : rest <:+ s :=
  ⟨w, (eq_append_of_anyKeyword? h).1.symm⟩

theorem blanks?_suffix {s rest : Text} (h : blanks? s = some rest) : rest <:+ s := by
  cases s with
  | nil => simp [blanks?] at h
  | cons c s =>
    rw [blanks?] at h
    split at h
    · obtain rfl := Option.some.inj h
      exact (List.dropWhile_suffix _).trans (List.suffix_cons c s)
    · cases h

theorem name?_suffix {s name rest : Text} (h : name? s = some (name, rest)) : rest <:+ s := by
  cases s with
  | nil => simp [name?, readRun?] at h
  | cons c s =>
    rw [name?, readRun?] at h
    split at h
    · simp only [Option.some.injEq, Prod.mk.injEq] at h
      rw [← h.2]
      exact (List.dropWhile_suffix _).trans (List.suffix_cons c s)
    · cases h

/-- An attribute group starts with a hash. -/
theorem stripAttributes_of_head_ne {s : Text} (h : (Text.trimStart s).head? ≠ some '#') :
    stripAttributes s = Text.trimStart s := by
  apply stripAttributes_of_dropAttribute?
  by_contra hdrop
  obtain ⟨rest, hrest⟩ := Option.ne_none_iff_exists'.mp hdrop
  obtain ⟨inner, htext⟩ := eq_append_of_dropAttribute? hrest
  exact h (by rw [htext, List.head?_cons])

theorem stripAttributes_suffix (s : Text) : stripAttributes s <:+ s := by
  fun_induction stripAttributes s with
  | case1 s rest h ih =>
    obtain ⟨inner, htext⟩ := eq_append_of_dropAttribute? h
    have hrest : rest <:+ Text.trimStart s := ⟨'#' :: '[' :: (inner ++ [']']), by simp [htext]⟩
    exact ih.trans (hrest.trans (List.dropWhile_suffix _))
  | case2 s h => exact List.dropWhile_suffix _

end Code

theorem Text.strip?_suffix {start s rest : Text} (h : Text.strip? start s = some rest) :
    rest <:+ s :=
  ⟨start, (Text.strip?_eq_some_iff.mp h).symm⟩

namespace Modifier

theorem read?_suffix {family : Family} {s rest : Text} {m : Modifier}
    (h : read? family s = some (m, rest)) : rest <:+ s := by
  unfold read? at h
  split at h
  · cases h
  · rename_i word after hword
    have hafter := Code.anyKeyword?_suffix hword
    split at h
    · rename_i afterMark hmark
      simp only [Option.map_eq_some_iff, Prod.mk.injEq] at h
      obtain ⟨rest', h', -, rfl⟩ := h
      have hset : afterMark <:+ after := by
        split at hmark
        · unfold setter? at hmark
          split at hmark
          · simp only [Option.map_eq_some_iff, Prod.exists] at hmark
            obtain ⟨w, mark, hkeyword, rfl⟩ := hmark
            exact Code.keyword?_suffix hkeyword
          · cases hmark
        · cases hmark
      exact (Code.blanks?_suffix h').trans (hset.trans hafter)
    · simp only [Option.map_eq_some_iff, Prod.mk.injEq] at h
      obtain ⟨rest', h', -, rfl⟩ := h
      exact (Code.blanks?_suffix h').trans hafter

theorem readAll_of_anyKeyword? {family : Family} {s : Text}
    (h : Code.anyKeyword? family.words s = none) : readAll family s = ([], s) := by
  apply readAll_of_read?
  rw [read?, h]

theorem readAll_suffix (family : Family) (s : Text) : (readAll family s).2 <:+ s := by
  fun_induction readAll family s with
  | case1 s h => exact List.suffix_rfl
  | case2 s m rest h more rest' hread ih =>
    rw [hread] at ih
    exact ih.trans (read?_suffix h)

end Modifier

theorem ClassDecl.readHead?_suffix {s : Text} {head : ClassDecl.Head}
    (h : ClassDecl.readHead? s = some head) : head.rest <:+ s := by
  simp only [ClassDecl.readHead?, Option.bind_eq_bind, Option.bind_eq_some_iff, Option.pure_def,
    Option.some.injEq, Prod.exists] at h
  obtain ⟨keyword, afterKeyword, hkeyword, afterBlanks, hblanks, name, rest, hname, rfl⟩ := h
  exact (Code.name?_suffix hname).trans ((Code.blanks?_suffix hblanks).trans
    ((Code.anyKeyword?_suffix hkeyword).trans ((Modifier.readAll_suffix _ _).trans
      (List.dropWhile_suffix _))))

/-- The rest of the head of a function starts with the parenthesis of its parameters. -/
theorem FunctionDecl.readHead?_suffix {s : Text} {head : FunctionDecl.Head}
    (h : FunctionDecl.readHead? s = some head) :
    ∃ rest, head.rest = '(' :: rest ∧ '(' :: rest <:+ s := by
  simp only [FunctionDecl.readHead?, Option.bind_eq_bind, Option.bind_eq_some_iff, Prod.exists] at h
  obtain ⟨keyword, afterKeyword, hkeyword, afterBlanks, hblanks, name, afterName, hname, h⟩ := h
  split at h
  · rename_i rest hparen
    obtain rfl := Option.some.inj h
    refine ⟨rest, rfl, ?_⟩
    have hstrip : (Text.strip? ['&'] afterBlanks).getD afterBlanks <:+ afterBlanks := by
      cases hmark : Text.strip? ['&'] afterBlanks with
      | none => exact List.suffix_rfl
      | some after => exact Text.strip?_suffix hmark
    rw [← hparen]
    exact (List.dropWhile_suffix _).trans ((Code.name?_suffix hname).trans
      ((List.dropWhile_suffix _).trans (hstrip.trans ((Code.blanks?_suffix hblanks).trans
        ((Code.keyword?_suffix hkeyword).trans ((Modifier.readAll_suffix _ _).trans
          (List.dropWhile_suffix _)))))))
  · cases h

end PhpLint
