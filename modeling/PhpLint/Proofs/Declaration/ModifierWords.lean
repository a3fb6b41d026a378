import PhpLint.Declaration.Class
import PhpLint.Declaration.Function
import PhpLint.Declaration.Property
import PhpLint.Proofs.Code.Names

/-!
A word where modifiers are read. With a blank behind it, the word is a modifier if, up to case,
it is one of the family. If it is not, no modifier is read at all, not even one that the word
starts with.
-/

namespace PhpLint

/-- What is read where a word stands, and has no blank in it, is the word, or the word goes on
behind it. -/
theorem Code.eq_append_word {t rest w after : Text} (h : t ++ ' ' :: rest = w ++ after)
    (hblank : ' ' ∉ w.map foldLetter) :
    (t = w ∧ after = ' ' :: rest) ∨
      ∃ d more, t = w ++ d :: more ∧ after = d :: more ++ ' ' :: rest := by
  rcases List.append_eq_append_iff.mp h with ⟨more, rfl, hmore⟩ | ⟨more, rfl, rfl⟩
  · cases more with
    | nil => exact .inl ⟨by simp, by simpa using hmore.symm⟩
    | cons b more =>
      obtain rfl := (List.cons.inj hmore).1
      exact absurd (List.mem_map.mpr ⟨' ', by simp, foldLetter_blank⟩) hblank
  · cases more with
    | nil => exact .inl ⟨by simp, rfl⟩
    | cons d more => exact .inr ⟨d, more, rfl, by simp⟩

namespace Modifier

/-- No word of the family has a blank in it, and none starts another one. -/
def Family.Apart (family : Family) : Prop :=
  ∀ word ∈ family.words, ' ' ∉ word ∧ ∀ other ∈ family.words, word <+: other → word = other

instance (family : Family) : Decidable family.Apart :=
  inferInstanceAs (Decidable (∀ word ∈ family.words, _ ∧ _))

variable {family : Family} {t : Text}

/-- Only a parenthesis in front of it is the mark of a setter. -/
theorem setter?_cons {c : Char} (hc : c ≠ '(') (word rest : Text) :
    setter? word (c :: rest) = none := by
  have hset : "(set)".toList = '(' :: "set)".toList := rfl
  unfold setter?
  split
  · rw [hset, Code.keyword?, if_neg (Code.foldLetter_ne_paren hc), Option.map_none]
  · rfl

/-- The modifier at the start of a word with a blank behind it. -/
theorem read?_word (hapart : family.Apart)
    (ht : ∀ c ∈ t, Text.isBlank c = false ∧ c ≠ '(') (rest : Text) :
    read? family (t ++ ' ' :: rest) =
      if t.map Code.foldLetter ∈ family.words then some (⟨t, false⟩, Text.trimStart rest)
      else none := by
  have hblanks : Code.blanks? (' ' :: rest) = some (Text.trimStart rest) := rfl
  have hsetter (w : Text) : (if family.setters then setter? w (' ' :: rest) else none) = none := by
    simp [setter?_cons (c := ' ') (by decide)]
  cases hread : Code.anyKeyword? family.words (t ++ ' ' :: rest) with
  | none =>
    have hno : t.map Code.foldLetter ∉ family.words := by
      intro hmem
      have hnone := List.findSome?_eq_none_iff.mp hread _ hmem
      rw [Code.keyword?_append] at hnone
      cases hnone
    rw [read?, hread, if_neg hno]
  | some found =>
    obtain ⟨w, after⟩ := found
    obtain ⟨happend, hword⟩ := Code.eq_append_of_anyKeyword? hread
    obtain ⟨rfl, rfl⟩ | ⟨d, more, rfl, rfl⟩ := Code.eq_append_word happend (hapart _ hword).1
    · rw [if_pos hword, read?, hread]
      simp only [hsetter, hblanks, Option.map_some]
    · have hd := ht d (by simp)
      have hno : (w ++ d :: more).map Code.foldLetter ∉ family.words := by
        intro hmem
        have hsame := (hapart _ hword).2 _ hmem (by simp)
        simp at hsame
      have hafter : Code.blanks? (d :: more ++ ' ' :: rest) = none := by
        rw [List.cons_append, Code.blanks?, hd.1]
        rfl
      have hmark : (if family.setters then setter? w (d :: more ++ ' ' :: rest) else none) =
          none := by
        simp [setter?_cons hd.2]
      rw [if_neg hno, read?, hread]
      simp only [hmark, hafter, Option.map_none]

theorem readAll_word (hapart : family.Apart) (ht : ∀ c ∈ t, Text.isBlank c = false ∧ c ≠ '(')
    (hword : t.map Code.foldLetter ∈ family.words) (rest : Text) :
    readAll family (t ++ ' ' :: rest) =
      (⟨t, false⟩ :: (readAll family (Text.trimStart rest)).1,
        (readAll family (Text.trimStart rest)).2) :=
  readAll_of_read?_some (by rw [read?_word hapart ht, if_pos hword])

theorem readAll_other_word (hapart : family.Apart)
    (ht : ∀ c ∈ t, Text.isBlank c = false ∧ c ≠ '(')
    (hword : t.map Code.foldLetter ∉ family.words) (rest : Text) :
    readAll family (t ++ ' ' :: rest) = ([], t ++ ' ' :: rest) :=
  readAll_of_read? (by rw [read?_word hapart ht, if_neg hword])

end Modifier

end PhpLint
