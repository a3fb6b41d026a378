import PhpLint.Proofs.Code.Names
import PhpLint.Text.Word

/-!
The words of a text, and searches that start at words. A character that belongs to no word
divides a text: its words are those in front of that character and those behind it, and a
search that finds nothing in front goes on behind it as in a text of its own.
-/

namespace PhpLint

namespace Text

theorem isWord_of_isIdentPart {c : Char} (h : isIdentPart c = true) : isWord c = true := by
  have hascii : c.toNat < 0x80 := by
    have hident : (decide (c.val ≥ 65 ∧ c.val ≤ 90) || (c.val ≥ 97 && c.val ≤ 122) ||
        (c.val ≥ 48 && c.val ≤ 57) || c == '_') = true := h
    simp only [Bool.or_eq_true, Bool.and_eq_true, decide_eq_true_eq, beq_iff_eq, ge_iff_le,
      UInt32.le_iff_toNat_le] at hident
    rcases hident with hident | rfl
    · have hnat : c.toNat = c.val.toNat := rfl
      simp at hident
      omega
    · decide
  rw [isWord, if_pos hascii]
  exact h

/-- The white space outside of ASCII. -/
def wideBlanks : List Nat :=
  [0x85, 0xa0, 0x1680, 0x2000, 0x2001, 0x2002, 0x2003, 0x2004, 0x2005, 0x2006, 0x2007, 0x2008,
    0x2009, 0x200a, 0x2028, 0x2029, 0x202f, 0x205f, 0x3000]

theorem flips_wideBlanks : ∀ n ∈ wideBlanks, flips wordBounds n = false := by decide +kernel

/-- No white space is part of a word. -/
theorem isBlank_of_isWord {c : Char} (h : isWord c = true) : isBlank c = false := by
  rw [isWord] at h
  split at h
  · exact isBlank_of_isIdentPart h
  · rename_i hascii
    by_contra hblank
    simp only [isBlank, Bool.not_eq_false, Bool.or_eq_true, Bool.and_eq_true, decide_eq_true_eq,
      beq_iff_eq] at hblank
    have hmem : c.toNat ∈ wideBlanks := by
      simp only [wideBlanks, List.mem_cons, List.not_mem_nil, or_false]
      omega
    exact Bool.false_ne_true ((flips_wideBlanks _ hmem).symm.trans h)

end Text

namespace Code

variable {c : Char} {s t : Text}

theorem wordsFrom_append (hc : Text.isWord c = false) (current s t : Text) :
    wordsFrom current (s ++ c :: t) = wordsFrom current s ++ words t := by
  induction s generalizing current with
  | nil =>
    rw [List.nil_append]
    cases current <;> simp [wordsFrom, words, hc]
  | cons d s ih =>
    rw [List.cons_append, wordsFrom, wordsFrom]
    split
    · exact ih _
    · split
      · exact ih _
      · rw [ih, List.cons_append]

theorem words_append (hc : Text.isWord c = false) (s t : Text) :
    words (s ++ c :: t) = words s ++ words t :=
  wordsFrom_append hc [] s t

theorem words_cons (hc : Text.isWord c = false) (t : Text) : words (c :: t) = words t :=
  words_append hc [] t

/-- A word that has begun ends where the text has no more word characters. -/
theorem wordsFrom_of_begun {current : Text} (hcurrent : current ≠ []) (s : Text) :
    wordsFrom current s =
      (current.reverse ++ s.takeWhile Text.isWord) :: words (s.dropWhile Text.isWord) := by
  induction s generalizing current with
  | nil => simp [wordsFrom, words, hcurrent]
  | cons c s ih =>
    rw [wordsFrom]
    split
    · rename_i hc
      rw [ih (List.cons_ne_nil c current)]
      simp [hc]
    · rename_i hc
      simp only [Bool.not_eq_true] at hc
      simp [hcurrent, hc, words, wordsFrom]

theorem words_of_start (hc : Text.isWord c = true) (s : Text) :
    words (c :: s) =
      (c :: s).takeWhile Text.isWord :: words ((c :: s).dropWhile Text.isWord) := by
  rw [words, wordsFrom, if_pos hc, wordsFrom_of_begun (by simp)]
  simp [hc]

theorem words_of_isWord (hne : s ≠ []) (h : ∀ c ∈ s, Text.isWord c = true) : words s = [s] := by
  obtain ⟨c, rest, rfl⟩ := List.exists_cons_of_ne_nil hne
  rw [words_of_start (h c List.mem_cons_self), List.takeWhile_eq_self_iff.mpr h,
    List.dropWhile_eq_nil_iff.mpr h]
  rfl

/-- A name is its own only word. -/
theorem words_of_isIdentPart (hne : s ≠ []) (h : ∀ c ∈ s, Text.isIdentPart c = true) :
    words s = [s] :=
  words_of_isWord hne fun c hc => Text.isWord_of_isIdentPart (h c hc)

theorem words_join {sep : Text} (hne : sep ≠ []) (hsep : ∀ c ∈ sep, Text.isWord c = false)
    (parts : List Text) : words (Text.join sep parts) = parts.flatMap words := by
  have hskip {s : Text} (hs : ∀ c ∈ s, Text.isWord c = false) (t : Text) :
      words (s ++ t) = words t := by
    induction s with
    | nil => rfl
    | cons c s ih =>
      rw [List.forall_mem_cons] at hs
      rw [List.cons_append, words_cons hs.1, ih hs.2]
  match parts with
  | [] => rfl
  | [p] => simp [Text.join]
  | p :: q :: parts =>
    obtain ⟨c, rest, rfl⟩ := List.exists_cons_of_ne_nil hne
    rw [List.forall_mem_cons] at hsep
    rw [Text.join, List.append_assoc, List.cons_append, words_append hsep.1, hskip hsep.2,
      words_join hne (List.forall_mem_cons.mpr hsep)]
    rfl

/-- Where no word is going on, the text has the words of both its sides. -/
theorem words_append_of_end {front : Text} (h : ∀ c ∈ front.getLast?, Text.isWord c = false)
    (s : Text) : words (front ++ s) = words front ++ words s := by
  rcases List.eq_nil_or_concat front with rfl | ⟨init, c, rfl⟩
  · rfl
  · have hc : Text.isWord c = false := h c (by simp)
    have hnil : words [] = [] := rfl
    rw [List.concat_eq_append, List.append_assoc, List.singleton_append, words_append hc,
      words_append hc, hnil, List.append_nil]

/-- What folds to a letter is a letter. -/
theorem isWord_of_foldLetter (h : Text.isIdentPart (foldLetter c) = true) :
    Text.isWord c = true := by
  unfold foldLetter at h
  split at h
  · rename_i hlong
    rw [hlong]
    decide +kernel
  · split at h
    · rename_i hkelvin
      rw [hkelvin]
      decide +kernel
    · exact Text.isWord_of_isIdentPart (Text.isIdentPart_of_toLower h)

/-- A keyword is read where it is no word only if the word goes on behind it. -/
theorem isWord_of_keyword? {word w rest : Text} (hword : word ≠ [])
    (hletters : ∀ k ∈ word, Text.isIdentPart k = true) (hc : Text.isWord c = false)
    (hs : ∀ v ∈ words s, v.map foldLetter ≠ word)
    (h : keyword? word (s ++ c :: t) = some (w, rest)) :
    ∃ d more, rest = d :: more ∧ Text.isWord d = true := by
  obtain ⟨happend, hfold⟩ := keyword?_eq_some_iff.mp h
  have hw : ∀ d ∈ w, Text.isWord d = true := fun d hd =>
    isWord_of_foldLetter (hletters _ (hfold ▸ List.mem_map_of_mem hd))
  have hself : words w = [w] := by
    refine words_of_isWord ?_ hw
    rintro rfl
    exact hword hfold.symm
  -- The character behind the text ends the keyword, so that all of it is in the text.
  obtain ⟨more, rfl⟩ : w <+: s := by
    rcases List.append_eq_append_iff.mp happend with ⟨more, rfl, hmore⟩ | ⟨more, rfl, -⟩
    · cases more with
      | nil => simp
      | cons d more =>
        obtain rfl := (List.cons.inj hmore).1
        exact absurd (hw c (by simp)) (by simp [hc])
    · exact ⟨more, rfl⟩
  rw [List.append_assoc] at happend
  obtain rfl := List.append_cancel_left happend
  cases more with
  | nil => exact absurd hfold (hs w (by simp [hself]))
  | cons d more =>
    refine ⟨d, more ++ c :: t, rfl, ?_⟩
    by_contra hd
    rw [Bool.not_eq_true] at hd
    exact hs w (by simp [words_append hd, hself]) hfold

theorem findAtWordStart_of_eq_some {α : Type} {read : Text → Option α} {found : α} (hne : s ≠ [])
    (h : read s = some found) : findAtWordStart read none s = some found := by
  obtain ⟨c, rest, rfl⟩ := List.exists_cons_of_ne_nil hne
  simp [findAtWordStart, h]

/-- A search that can find nothing in front of a character that belongs to no word goes on
behind that character. -/
theorem findAtWordStart_append {α : Type} {read : Text → Option α} (hc : Text.isWord c = false)
    (hstop : read (c :: t) = none)
    (hread : ∀ u v, s = u ++ v → v ≠ [] → (∀ d ∈ u.getLast?, Text.isWord d = false) →
      read (v ++ c :: t) = none) :
    findAtWordStart read none (s ++ c :: t) = findAtWordStart read none t := by
  have hbehind (previous : Option Char) :
      findAtWordStart read previous (c :: t) = findAtWordStart read none t := by
    have hnone : (if previous.any Text.isWord then none else read (c :: t)) = none := by
      simp [hstop]
    rw [findAtWordStart, hnone]
    cases t with
    | nil => rfl
    | cons d t => simp [findAtWordStart, hc]
  -- Along the text, `u` is what has been passed.
  have hwalk (u v : Text) (h : s = u ++ v) :
      findAtWordStart read u.getLast? (v ++ c :: t) = findAtWordStart read none t := by
    induction v generalizing u with
    | nil => exact hbehind _
    | cons d v ih =>
      have hmore := ih (u ++ [d]) (by simp [h])
      rw [List.getLast?_concat] at hmore
      have hnone : (if u.getLast?.any Text.isWord then none else read (d :: v ++ c :: t)) =
          none := by
        split
        · rfl
        · rename_i hlast
          refine hread u (d :: v) h (by simp) fun e he => ?_
          rw [Option.mem_def.mp he] at hlast
          simpa using hlast
      rw [List.cons_append] at hnone
      rw [List.cons_append, findAtWordStart, hnone]
      exact hmore
  exact hwalk [] s rfl

end Code

end PhpLint
