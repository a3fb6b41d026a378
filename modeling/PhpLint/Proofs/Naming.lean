import Mathlib.Data.List.TFAE
import PhpLint.Naming
import PhpLint.Proofs.Code.Names
import PhpLint.Proofs.Text.Basic

/-!
Names and the conventions that they can be written in. The words of an ASCII name hold all
of it but its underscores, in lower case and in order, so a name that is put together of
them starts with the first character that is no underscore. Main statement: either that
character is a letter and all four conversions give a name of their convention, or none of
them does.
-/

namespace PhpLint

/-- A decidable fact about the ASCII characters is settled by looking at each of them. -/
theorem forall_ascii {p : Char → Prop} (h : ∀ n : Fin 128, p (Char.ofNat n)) {c : Char}
    (hc : c.toNat < 128) : p c := by
  have hchar := h ⟨c.toNat, hc⟩
  rwa [Char.ofNat_toNat] at hchar

namespace Text

theorem ascii_of_isIdentPart {c : Char} (h : isIdentPart c = true) : c.toNat < 128 := by
  have hident : (decide (c.val ≥ 65 ∧ c.val ≤ 90) || (c.val ≥ 97 && c.val ≤ 122) ||
      (c.val ≥ 48 && c.val ≤ 57) || c == '_') = true := h
  simp only [Bool.or_eq_true, Bool.and_eq_true, decide_eq_true_eq, beq_iff_eq, ge_iff_le,
    UInt32.le_iff_toNat_le] at hident
  rcases hident with hident | rfl
  · simp at hident
    omega
  · decide

end Text

namespace Naming

/-- The characters of words. -/
def isWordPart (c : Char) : Bool := c.isLower || c.isDigit

/-- A word of an ASCII name. -/
def IsWord (w : Text) : Prop := w ≠ [] ∧ ∀ c ∈ w, isWordPart c = true

section Characters

variable {c : Char}

theorem ascii_of_isWordPart (h : isWordPart c = true) : c.toNat < 128 := by
  apply Text.ascii_of_isIdentPart
  rw [isWordPart, Bool.or_eq_true] at h
  change (c.isUpper || c.isLower || c.isDigit || c == '_') = true
  rcases h with h | h <;> simp [h]

/-- In an ASCII name, underscores are the only separators. -/
theorem isSeparator_of_isIdentPart (h : Text.isIdentPart c = true) :
    isSeparator c = (c == '_') := by
  have hall := forall_ascii (p := fun c => Text.isIdentPart c = true → isSeparator c = (c == '_'))
    (by decide) (Text.ascii_of_isIdentPart h)
  exact hall h

/-- Any other character is one of a word once it is in lower case. -/
theorem lowerChar_of_isIdentPart (h : Text.isIdentPart c = true) (hc : c ≠ '_') :
    Text.lowerChar c = [c.toLower] ∧ isWordPart c.toLower = true ∧
      c.toLower.isLower = c.isAlpha := by
  have hascii := Text.ascii_of_isIdentPart h
  have hall := forall_ascii (p := fun c => Text.isIdentPart c = true → c ≠ '_' →
    isWordPart c.toLower = true ∧ c.toLower.isLower = c.isAlpha) (by decide) hascii
  exact ⟨if_pos hascii, hall h hc⟩

theorem upperChar_of_isWordPart (h : isWordPart c = true) : Text.upperChar c = [c.toUpper] :=
  if_pos (ascii_of_isWordPart h)

theorem case_of_isWordPart (h : isWordPart c = true) :
    c.toUpper.isUpper = c.isLower ∧ Text.lowerChar c.toUpper = [c] ∧
      (c.toUpper.isUpper || c.toUpper.isDigit) = true := by
  have hall := forall_ascii (p := fun c => isWordPart c = true → c.toUpper.isUpper = c.isLower ∧
    Text.lowerChar c.toUpper = [c] ∧ (c.toUpper.isUpper || c.toUpper.isDigit) = true)
    (by decide +kernel) (ascii_of_isWordPart h)
  exact hall h

theorem isAlphanum_of_isWordPart (h : isWordPart c = true) : c.isAlphanum = true := by
  rw [isWordPart, Bool.or_eq_true] at h
  change (c.isUpper || c.isLower || c.isDigit) = true
  rcases h with h | h <;> simp [h]

theorem isAlphanum_toUpper_of_isWordPart (h : isWordPart c = true) :
    c.toUpper.isAlphanum = true := by
  have hcase := (case_of_isWordPart h).2.2
  rw [Bool.or_eq_true] at hcase
  change (c.toUpper.isUpper || c.toUpper.isLower || c.toUpper.isDigit) = true
  rcases hcase with h | h <;> simp [h]

end Characters

section Words

variable {previous : Option Char} {current s : Text}

/-- What is at hand becomes a word unless it is empty. -/
theorem wordsFrom_nil (previous : Option Char) (current : Text) :
    wordsFrom previous current [] = if current.isEmpty then [] else [current] := rfl

/-- One character ends the current word, starts another one behind it or continues it. -/
theorem wordsFrom_cons (previous : Option Char) (current : Text) (c : Char) (s : Text) :
    wordsFrom previous current (c :: s) =
      if isSeparator c then wordsFrom previous current [] ++ wordsFrom (some c) [] s
      else if previous.any fun p => startsWord p c s then
        wordsFrom previous current [] ++ wordsFrom (some c) (Text.lowerChar c) s
      else wordsFrom (some c) (current ++ Text.lowerChar c) s := by
  rw [wordsFrom]
  cases current <;> rfl

theorem flatten_wordsFrom_nil (previous : Option Char) (current : Text) :
    (wordsFrom previous current []).flatten = current := by
  rw [wordsFrom_nil]
  cases current <;> simp

/-- Words hold everything but the separators, in order and in lower case. -/
theorem flatten_wordsFrom (previous : Option Char) (current s : Text) :
    (wordsFrom previous current s).flatten =
      current ++ (s.filter (!isSeparator ·)).flatMap Text.lowerChar := by
  induction s generalizing previous current with
  | nil => rw [flatten_wordsFrom_nil, List.filter_nil, List.flatMap_nil, List.append_nil]
  | cons c s ih =>
    rw [wordsFrom_cons]
    cases hc : isSeparator c with
    | true => simp [hc, flatten_wordsFrom_nil, ih]
    | false =>
      rw [if_neg Bool.false_ne_true, List.filter_cons_of_pos (by simp [hc]), List.flatMap_cons]
      split
      · rw [List.flatten_append, flatten_wordsFrom_nil, ih]
      · rw [ih, List.append_assoc]

theorem isWord_of_mem_wordsFrom_nil {w : Text} (hcurrent : ∀ c ∈ current, isWordPart c = true)
    (hw : w ∈ wordsFrom previous current []) : IsWord w := by
  rw [wordsFrom_nil] at hw
  cases current with
  | nil => cases hw
  | cons c t =>
    obtain rfl := List.mem_singleton.mp hw
    exact ⟨List.cons_ne_nil c t, hcurrent⟩

theorem isWord_of_mem_wordsFrom {w : Text} (hcurrent : ∀ c ∈ current, isWordPart c = true)
    (hs : ∀ c ∈ s, Text.isIdentPart c = true) (hw : w ∈ wordsFrom previous current s) :
    IsWord w := by
  induction s generalizing previous current with
  | nil => exact isWord_of_mem_wordsFrom_nil hcurrent hw
  | cons c s ih =>
    obtain ⟨hc, hs⟩ := List.forall_mem_cons.mp hs
    rw [wordsFrom_cons, isSeparator_of_isIdentPart hc] at hw
    by_cases hseparator : c = '_'
    · rw [if_pos (by simpa using hseparator), List.mem_append] at hw
      rcases hw with hw | hw
      · exact isWord_of_mem_wordsFrom_nil hcurrent hw
      · exact ih (by simp) hs hw
    · obtain ⟨hlower, hpart, -⟩ := lowerChar_of_isIdentPart hc hseparator
      rw [if_neg (by simpa using hseparator), hlower] at hw
      split at hw
      · rcases List.mem_append.mp hw with hw | hw
        · exact isWord_of_mem_wordsFrom_nil hcurrent hw
        · exact ih (by simpa using hpart) hs hw
      · exact ih (List.forall_mem_append.mpr ⟨hcurrent, by simpa using hpart⟩) hs hw

end Words

/-- The first character of a name that is no underscore. -/
def lead? (name : Text) : Option Char := name.find? (· != '_')

section Conversions

variable {name : Text}

/-- The words of an ASCII name are words, and the first of them starts with the first
character that is no underscore. -/
theorem words_of_isIdentifier (h : Code.isIdentifier name = true) :
    (∀ w ∈ words name, IsWord w) ∧
      (words name).flatten.head? = (lead? name).map Char.toLower ∧
      ∀ c ∈ lead? name, c.toLower.isLower = c.isAlpha := by
  have hpart := Code.isIdentPart_of_isIdentifier h
  have hlead : ∀ c ∈ lead? name, Text.lowerChar c = [c.toLower] ∧
      isWordPart c.toLower = true ∧ c.toLower.isLower = c.isAlpha := by
    intro c hc
    have hne : c ≠ '_' := by simpa using List.find?_some hc
    exact lowerChar_of_isIdentPart (hpart c (List.mem_of_find?_eq_some hc)) hne
  refine ⟨fun w => isWord_of_mem_wordsFrom (by simp) hpart, ?_, fun c hc => (hlead c hc).2.2⟩
  have hfilter : name.filter (!isSeparator ·) = name.filter (· != '_') := by
    apply List.filter_congr
    intro c hc
    rw [isSeparator_of_isIdentPart (hpart c hc)]
    rfl
  rw [words, flatten_wordsFrom, List.nil_append, hfilter]
  have hhead : (name.filter (· != '_')).head? = lead? name := List.head?_filter ..
  cases hchars : name.filter (· != '_') with
  | nil =>
    rw [← hhead, hchars]
    rfl
  | cons c rest =>
    rw [hchars, List.head?_cons] at hhead
    rw [← hhead, List.flatMap_cons, (hlead c hhead.symm).1]
    rfl

theorem isAlphanum_of_mem_capitalize {w : Text} (hw : IsWord w) {c : Char}
    (hc : c ∈ capitalize w) : c.isAlphanum = true := by
  cases w with
  | nil => cases hc
  | cons d w =>
    obtain ⟨hd, hw⟩ := List.forall_mem_cons.mp hw.2
    rw [capitalize, upperChar_of_isWordPart hd, List.singleton_append] at hc
    rcases List.mem_cons.mp hc with rfl | hc
    · exact isAlphanum_toUpper_of_isWordPart hd
    · exact isAlphanum_of_isWordPart (hw c hc)

section FirstWord

-- The character with which the first word starts decides on all four conversions.
variable {c : Char} {w : Text} {ws : List Text} (hwords : words name = (c :: w) :: ws)
  (hword : ∀ v ∈ (c :: w) :: ws, IsWord v)

include hwords hword

theorem toPascalCase_of_words :
    toPascalCase name = c.toUpper :: (w ++ ws.flatMap capitalize) := by
  have hc : isWordPart c = true := (hword _ List.mem_cons_self).2 c List.mem_cons_self
  rw [toPascalCase, hwords, List.flatMap_cons, capitalize, upperChar_of_isWordPart hc]
  rfl

theorem isPascalCase_of_words :
    isPascalCase (toPascalCase name) = c.isLower := by
  obtain ⟨hfirst, hws⟩ := List.forall_mem_cons.mp hword
  obtain ⟨hc, hw⟩ := List.forall_mem_cons.mp hfirst.2
  have hrest : (w ++ ws.flatMap capitalize).all Char.isAlphanum = true := by
    rw [List.all_append, Bool.and_eq_true, List.all_eq_true, List.all_eq_true]
    refine ⟨fun d hd => isAlphanum_of_isWordPart (hw d hd), fun d hd => ?_⟩
    obtain ⟨v, hv, hd⟩ := List.mem_flatMap.mp hd
    exact isAlphanum_of_mem_capitalize (hws v hv) hd
  rw [toPascalCase_of_words hwords hword, isPascalCase, shaped, hrest, Bool.and_true,
    (case_of_isWordPart hc).1]

theorem isCamelCase_of_words :
    isCamelCase (toCamelCase name) = c.isLower := by
  have hc : isWordPart c = true := (hword _ List.mem_cons_self).2 c List.mem_cons_self
  obtain ⟨hupper, hlower, -⟩ := case_of_isWordPart hc
  have hpascal := isPascalCase_of_words hwords hword
  rw [toPascalCase_of_words hwords hword, isPascalCase, shaped, hupper] at hpascal
  rw [toCamelCase, toPascalCase_of_words hwords hword]
  simp only [hlower, List.singleton_append, isCamelCase, shaped]
  exact hpascal

/-- The words with underscores between them. -/
theorem toSnakeCase_of_words :
    ∃ rest, toSnakeCase name = c :: rest ∧ ∀ d ∈ rest, isWordPart d = true ∨ d = '_' := by
  have hjoin := Text.join_cons ['_'] (c :: w) ws
  rw [List.cons_append] at hjoin
  refine ⟨_, by rw [toSnakeCase, hwords, hjoin], fun d hd => ?_⟩
  have hmem : d ∈ Text.join ['_'] ((c :: w) :: ws) := hjoin ▸ List.mem_cons_of_mem c hd
  rcases Text.mem_join hmem with hd | ⟨v, hv, hd⟩
  · exact .inr (List.mem_singleton.mp hd)
  · exact .inl ((hword v hv).2 d hd)

theorem isSnakeCase_of_words :
    isSnakeCase (toSnakeCase name) = c.isLower := by
  obtain ⟨rest, hsnake, hrest⟩ := toSnakeCase_of_words hwords hword
  have hall : rest.all (fun d => d.isLower || d.isDigit || d == '_') = true := by
    rw [List.all_eq_true]
    intro d hd
    simpa [isWordPart] using hrest d hd
  rw [hsnake, isSnakeCase, shaped, hall, Bool.and_true]

theorem isConstantCase_of_words :
    isConstantCase (toConstantCase name) = c.isLower := by
  obtain ⟨rest, hsnake, hrest⟩ := toSnakeCase_of_words hwords hword
  have hc : isWordPart c = true := (hword _ List.mem_cons_self).2 c List.mem_cons_self
  have hall : (rest.flatMap Text.upperChar).all (fun d => d.isUpper || d.isDigit || d == '_') =
      true := by
    rw [List.all_eq_true]
    intro d hd
    obtain ⟨e, he, hd⟩ := List.mem_flatMap.mp hd
    rcases hrest e he with he | rfl
    · rw [upperChar_of_isWordPart he, List.mem_singleton] at hd
      rw [hd, (case_of_isWordPart he).2.2, Bool.true_or]
    · obtain rfl : d = '_' := by simpa [Text.upperChar] using hd
      rfl
  rw [toConstantCase, hsnake, Text.toUpper, List.flatMap_cons, upperChar_of_isWordPart hc,
    List.singleton_append, isConstantCase, shaped, hall, Bool.and_true, (case_of_isWordPart hc).1]

end FirstWord

/-- Whether the first character that is no underscore is there and is a letter. -/
def leadsWithLetter (name : Text) : Bool := (lead? name).any Char.isAlpha

/-- A conversion gives a name of its convention exactly if a letter leads the name. -/
theorem conversions_conform (h : Code.isIdentifier name = true) :
    isPascalCase (toPascalCase name) = leadsWithLetter name ∧
      isCamelCase (toCamelCase name) = leadsWithLetter name ∧
      isSnakeCase (toSnakeCase name) = leadsWithLetter name ∧
      isConstantCase (toConstantCase name) = leadsWithLetter name := by
  obtain ⟨hword, hhead, hletter⟩ := words_of_isIdentifier h
  unfold leadsWithLetter
  match hwords : words name with
  | [] =>
    rw [hwords] at hhead
    have hnone : lead? name = none := Option.map_eq_none_iff.mp hhead.symm
    rw [hnone, toConstantCase, toSnakeCase, toCamelCase, toPascalCase, hwords]
    exact ⟨rfl, rfl, rfl, rfl⟩
  | [] :: ws => exact absurd rfl (hword [] (by rw [hwords]; exact List.mem_cons_self)).1
  | (c :: w) :: ws =>
    rw [hwords] at hword hhead
    obtain ⟨d, hd, hlower⟩ := Option.map_eq_some_iff.mp hhead.symm
    have hlead : (lead? name).any Char.isAlpha = c.isLower := by
      rw [hd, Option.any_some, ← hlower, hletter d hd]
    rw [hlead]
    exact ⟨isPascalCase_of_words hwords hword, isCamelCase_of_words hwords hword,
      isSnakeCase_of_words hwords hword, isConstantCase_of_words hwords hword⟩

end Conversions

end Naming

end PhpLint
