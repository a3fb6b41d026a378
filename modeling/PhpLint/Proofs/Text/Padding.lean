import PhpLint.Code.Bracket
import PhpLint.Code.Keyword
import PhpLint.Proofs.Code.Split

/-!
A blank at the end of a text. Whatever reads a text from its start finds the same in
front of the blank as it finds at the end of the text, and leaves the blank over:
trimming, keywords, names, brackets and separators each have one lemma that says so.
The one exception is a reader that needs a blank at the very end.
-/

namespace PhpLint

namespace Text

/-- The text with a blank behind it, unless there is no text. -/
def pad : Text → Text
  | [] => []
  | c :: s => c :: s ++ [' ']

theorem pad_of_ne_nil {s : Text} (h : s ≠ []) : pad s = s ++ [' '] := by
  cases s with
  | nil => exact absurd rfl h
  | cons c s => rfl

/-- What does not see a blank at the end of a text does not see that it is padded. -/
theorem pad_invariant {α : Type} {f : Text → α} (h : ∀ s, f (s ++ [' ']) = f s) (s : Text) :
    f (pad s) = f s := by
  cases s with
  | nil => rfl
  | cons c s => exact h (c :: s)

theorem trimStart_blank (s : Text) : trimStart (s ++ [' ']) = pad (trimStart s) := by
  induction s with
  | nil => rfl
  | cons c s ih =>
    cases hc : isBlank c with
    | true => rw [List.cons_append, trimStart_cons_of_blank hc, trimStart_cons_of_blank hc, ih]
    | false =>
      rw [List.cons_append, trimStart_cons_of_not_blank hc, trimStart_cons_of_not_blank hc]
      rfl

theorem trimEnd_blank (s : Text) : trimEnd (s ++ [' ']) = trimEnd s := by
  have hblank : isBlank ' ' = true := rfl
  simp [trimEnd, dropEndWhile, hblank]

theorem trim_blank (s : Text) : trim (s ++ [' ']) = trim s := by
  rw [trim, trimStart_blank, pad_invariant trimEnd_blank]
  rfl

theorem strip?_blank {start : Text} (h : ' ' ∉ start) (s : Text) :
    strip? start (s ++ [' ']) = (strip? start s).map (· ++ [' ']) := by
  induction start generalizing s with
  | nil => rfl
  | cons p start ih =>
    simp only [List.mem_cons, not_or] at h
    cases s with
    | nil => simp [strip?, Ne.symm h.1]
    | cons c s =>
      rw [List.cons_append, strip?, strip?]
      split
      · exact ih h.2 s
      · rfl

/-- A text that is cut is cut at the same place with a blank behind it. -/
theorem cut_blank {p : Char → Bool} (hp : p ' ' = false) (s : Text) :
    (cut p s = (s, []) ∧ cut p (s ++ [' ']) = (s ++ [' '], [])) ∨
      ∃ before c rest, cut p s = (before, c :: rest) ∧ p c = true ∧
        cut p (s ++ [' ']) = (before, c :: rest ++ [' ']) := by
  rcases cut_cases p s with ⟨hall, hcut⟩ | ⟨before, c, rest, rfl, hbefore, hc, hcut⟩
  · refine .inl ⟨hcut, ?_⟩
    apply cut_of_all
    intro c hmem
    rcases List.mem_append.mp hmem with hold | hblank
    · exact hall c hold
    · obtain rfl := List.mem_singleton.mp hblank
      exact hp
  · refine .inr ⟨before, c, rest, hcut, hc, ?_⟩
    rw [List.append_assoc]
    exact cut_split hbefore hc (rest ++ [' '])

/-- Of the parts of a text, the last one takes the blank. -/
theorem splitAtChar_blank {sep : Char} (hsep : ' ' ≠ sep) (s : Text) :
    ∃ front last, splitAtChar sep s = front ++ [last] ∧
      splitAtChar sep (s ++ [' ']) = front ++ [last ++ [' ']] := by
  induction s with
  | nil => exact ⟨[], [], rfl, by simp [splitAtChar, hsep]⟩
  | cons c s ih =>
    obtain ⟨front, last, hs, hblank⟩ := ih
    rw [List.cons_append, splitAtChar, splitAtChar, hs, hblank]
    split
    · exact ⟨[] :: front, last, rfl, rfl⟩
    · cases front with
      | nil => exact ⟨[], c :: last, rfl, rfl⟩
      | cons part front => exact ⟨(c :: part) :: front, last, rfl, rfl⟩

end Text

namespace Code

theorem foldLetter_blank : foldLetter ' ' = ' ' := by decide

theorem keyword?_blank {word : Text} (h : ' ' ∉ word) (s : Text) :
    keyword? word (s ++ [' ']) = (keyword? word s).map fun (w, rest) => (w, rest ++ [' ']) := by
  induction word generalizing s with
  | nil => rfl
  | cons k word ih =>
    simp only [List.mem_cons, not_or] at h
    cases s with
    | nil => simp [keyword?, foldLetter_blank, h.1]
    | cons c s =>
      rw [List.cons_append, keyword?, keyword?]
      split
      · rw [ih h.2, Option.map_map, Option.map_map]
        rfl
      · rfl

theorem anyKeyword?_blank {words : List Text} (h : ∀ word ∈ words, ' ' ∉ word) (s : Text) :
    anyKeyword? words (s ++ [' ']) =
      (anyKeyword? words s).map fun (w, rest) => (w, rest ++ [' ']) := by
  induction words with
  | nil => rfl
  | cons word words ih =>
    simp only [List.mem_cons, forall_eq_or_imp] at h
    simp only [anyKeyword?, List.findSome?_cons, keyword?_blank h.1] at ih ⊢
    cases keyword? word s with
    | none => exact ih h.2
    | some found => rfl

/-- A keyword that is read is the start of the text up to case. -/
theorem map_foldLetter_of_keyword? {word s w rest : Text} (h : keyword? word s = some (w, rest)) :
    s.map foldLetter = word ++ rest.map foldLetter := by
  obtain ⟨rfl, rfl⟩ := keyword?_eq_some_iff.mp h
  exact List.map_append

theorem map_foldLetter_of_anyKeyword? {words : List Text} {s w rest : Text}
    (h : anyKeyword? words s = some (w, rest)) :
    ∃ word ∈ words, s.map foldLetter = word ++ rest.map foldLetter := by
  obtain ⟨word, hmem, hword⟩ := List.exists_of_findSome?_eq_some h
  exact ⟨word, hmem, map_foldLetter_of_keyword? hword⟩

theorem blanks?_blank {s : Text} (h : s ≠ []) :
    blanks? (s ++ [' ']) = (blanks? s).map Text.pad := by
  cases s with
  | nil => exact absurd rfl h
  | cons c s =>
    rw [List.cons_append, blanks?, blanks?]
    split
    · rw [Text.trimStart_blank]
      rfl
    · rfl

theorem readRun?_blank {first part : Char → Bool} (hfirst : first ' ' = false)
    (hpart : part ' ' = false) (s : Text) :
    readRun? first part (s ++ [' ']) =
      (readRun? first part s).map fun (run, rest) => (run, rest ++ [' ']) := by
  cases s with
  | nil => simp [readRun?, hfirst]
  | cons c s =>
    rw [List.cons_append, readRun?, readRun?]
    split
    · rw [List.takeWhile_append, List.dropWhile_append]
      split
      · rename_i hlength
        have hall : s.takeWhile part = s :=
          (List.takeWhile_prefix part).eq_of_length hlength
        have hnone : s.dropWhile part = [] := by
          have hsplit := List.takeWhile_append_dropWhile (p := part) (l := s)
          rw [hall] at hsplit
          simpa using hsplit
        simp [hall, hnone, hpart]
      · rename_i hlength
        have hsome : s.dropWhile part ≠ [] := by
          intro hnone
          have hsplit := List.takeWhile_append_dropWhile (p := part) (l := s)
          rw [hnone, List.append_nil] at hsplit
          exact hlength (congrArg List.length hsplit)
        simp [hsome]
    · rfl

/-- A reader that finds nothing without a text, and in front of a blank finds what it
finds at the end, up to what the blank makes of it. -/
structure LeavesBlank {α : Type} (r : Text → Option α) (g : α → α) : Prop where
  nil : r [] = none
  blank : ∀ s, r (s ++ [' ']) = (r s).map g

namespace LeavesBlank

variable {α β : Type} {r : Text → Option α} {g : α → α}

theorem pad (h : LeavesBlank r g) (s : Text) : r (Text.pad s) = (r s).map g := by
  cases s with
  | nil => rw [Text.pad, h.nil, Option.map_none]
  | cons c s => exact h.blank (c :: s)

theorem trimStart (h : LeavesBlank r g) : LeavesBlank (fun s => r (Text.trimStart s)) g where
  nil := h.nil
  blank s := by rw [Text.trimStart_blank, h.pad]

theorem blanks (h : LeavesBlank r g) : LeavesBlank (fun s => (blanks? s).bind r) g where
  nil := rfl
  blank s := by
    cases s with
    | nil => exact h.nil
    | cons c s =>
      rw [blanks?_blank (List.cons_ne_nil c s)]
      cases blanks? (c :: s) with
      | none => rfl
      | some rest => exact h.pad rest

theorem strip {start : Text} (hstart : ' ' ∉ start) (hne : start ≠ []) :
    LeavesBlank (Text.strip? start) (· ++ [' ']) where
  nil := by
    cases start with
    | nil => exact absurd rfl hne
    | cons p start => rfl
  blank := Text.strip?_blank hstart

theorem stripped {start : Text} (hstart : ' ' ∉ start) (hne : start ≠ [])
    (h : LeavesBlank r g) : LeavesBlank (fun s => (Text.strip? start s).bind r) g where
  nil := by rw [(strip hstart hne).nil, Option.bind_none]
  blank s := by
    rw [Text.strip?_blank hstart]
    cases Text.strip? start s with
    | none => rfl
    | some rest => exact h.blank rest

theorem maybeStripped {start : Text} (hstart : ' ' ∉ start) (hne : start ≠ [])
    (h : LeavesBlank r g) :
    LeavesBlank (fun s => r ((Text.strip? start s).getD s)) g where
  nil := by rw [(strip hstart hne).nil]; exact h.nil
  blank s := by
    rw [Text.strip?_blank hstart]
    cases Text.strip? start s with
    | none => exact h.blank s
    | some rest => exact h.blank rest

/-- A reader that goes on where another stops. -/
theorem andThen {f : Text → Option (β × Text)} {k : β → Text → Option α}
    (hfirst : LeavesBlank f fun (b, rest) => (b, rest ++ [' ']))
    (hnext : ∀ b s, k b (s ++ [' ']) = (k b s).map g) :
    LeavesBlank (fun s => (f s).bind fun x => k x.1 x.2) g where
  nil := by rw [hfirst.nil, Option.bind_none]
  blank s := by
    rw [hfirst.blank]
    cases f s with
    | none => rfl
    | some x => exact hnext x.1 x.2

theorem keyword {word : Text} (hword : ' ' ∉ word) (hne : word ≠ []) :
    LeavesBlank (keyword? word) fun (w, rest) => (w, rest ++ [' ']) where
  nil := by
    cases word with
    | nil => exact absurd rfl hne
    | cons k word => rfl
  blank := keyword?_blank hword

theorem anyKeyword {words : List Text} (hwords : ∀ word ∈ words, ' ' ∉ word)
    (hne : ∀ word ∈ words, word ≠ []) :
    LeavesBlank (anyKeyword? words) fun (w, rest) => (w, rest ++ [' ']) where
  nil := List.findSome?_eq_none_iff.mpr fun word hmem =>
    (keyword (hwords word hmem) (hne word hmem)).nil
  blank := anyKeyword?_blank hwords

theorem run {first part : Char → Bool} (hfirst : first ' ' = false) (hpart : part ' ' = false) :
    LeavesBlank (readRun? first part) fun (name, rest) => (name, rest ++ [' ']) where
  nil := rfl
  blank := readRun?_blank hfirst hpart

theorem name : LeavesBlank name? fun (name, rest) => (name, rest ++ [' ']) := run rfl rfl

end LeavesBlank

/-- Behind a keyword and blanks with something after them, a clause may start at the same
places. -/
theorem clauseStarts_blank {s : Text} (h : Text.trimStart s ≠ []) :
    (∀ t ∈ clauseStarts s, t ≠ []) ∧
      clauseStarts (s ++ [' ']) = (clauseStarts s).map (· ++ [' ']) := by
  have hdrop : s.dropWhile Text.isBlank ≠ [] := h
  have htake : (s ++ [' ']).takeWhile Text.isBlank = s.takeWhile Text.isBlank := by
    rw [List.takeWhile_append, if_neg]
    intro hlength
    have hsplit := congrArg List.length
      (List.takeWhile_append_dropWhile (p := Text.isBlank) (l := s))
    rw [List.length_append, hlength] at hsplit
    exact hdrop (List.length_eq_zero_iff.mp (by omega))
  have hrest : (s ++ [' ']).dropWhile Text.isBlank = s.dropWhile Text.isBlank ++ [' '] := by
    rw [List.dropWhile_append, if_neg (by simpa using hdrop)]
  refine ⟨?_, ?_⟩
  · intro t ht
    obtain ⟨kept, -, rfl⟩ := List.mem_map.mp ht
    simp [hdrop]
  · rw [clauseStarts, clauseStarts, htake, hrest, List.map_map]
    apply List.map_congr_left
    intro kept _
    simp

theorem clauseStarts_of_trimStart_eq_nil {s : Text} (h : Text.trimStart s = []) :
    ∀ t ∈ clauseStarts s, Text.trimStart t = [] := by
  intro t ht
  obtain ⟨kept, -, rfl⟩ := List.mem_map.mp ht
  have hrest : s.dropWhile Text.isBlank = [] := h
  rw [hrest, List.append_nil]
  refine List.dropWhile_eq_nil_iff.mpr fun c hc => ?_
  exact List.all_eq_true.mp List.all_takeWhile c (List.mem_of_mem_drop hc)

theorem wordsFrom_blank (current s : Text) :
    wordsFrom current (s ++ [' ']) = wordsFrom current s := by
  have hword : Text.isWord ' ' = false := by decide
  induction s generalizing current with
  | nil => simp [wordsFrom, hword]
  | cons c s ih => simp only [List.cons_append, wordsFrom, ih]

theorem closeFrom_blank {opening closing : Char} (hclosing : ' ' ≠ closing) (depth : Nat)
    (quotes : QuoteState) (s : Text) :
    closeFrom opening closing depth quotes (s ++ [' ']) =
      (closeFrom opening closing depth quotes s).map
        fun (inner, rest) => (inner, rest ++ [' ']) := by
  induction s generalizing depth quotes with
  | nil => simp [closeFrom, hclosing]
  | cons c s ih =>
    rw [List.cons_append, closeFrom, closeFrom]
    split
    · rfl
    · simp only [ih, Option.map_map]
      rfl

theorem closeParen?_blank (s : Text) :
    closeParen? (s ++ [' ']) = (closeParen? s).map fun (inner, rest) => (inner, rest ++ [' ']) := by
  cases s with
  | nil => rfl
  | cons c s =>
    by_cases hparen : c = '('
    · subst hparen
      exact closeFrom_blank (by decide) 1 .outside s
    · simp [closeParen?, hparen]

theorem dropAttribute?_blank (s : Text) :
    dropAttribute? (Text.pad s) = (dropAttribute? s).map (· ++ [' ']) := by
  match s with
  | [] => rfl
  | [c] =>
    have hleft : dropAttribute? [c] = none := by simp [dropAttribute?]
    have hright : dropAttribute? [c, ' '] = none := by simp [dropAttribute?]
    exact hright.trans (by rw [hleft]; rfl)
  | c :: d :: s =>
    by_cases hstart : c = '#' ∧ d = '['
    · obtain ⟨rfl, rfl⟩ := hstart
      change ((closeFrom '[' ']' 1 .outside (s ++ [' '])).map Prod.snd) =
        ((closeFrom '[' ']' 1 .outside s).map Prod.snd).map (· ++ [' '])
      rw [closeFrom_blank (by decide), Option.map_map, Option.map_map]
      rfl
    · have hnone (t : Text) : dropAttribute? (c :: d :: t) = none := by
        unfold dropAttribute?
        split
        · rename_i hcd
          simp only [List.cons.injEq] at hcd
          exact absurd ⟨hcd.1, hcd.2.1⟩ hstart
        · rfl
      change dropAttribute? (c :: d :: (s ++ [' '])) = _
      rw [hnone, hnone]
      rfl

theorem stripAttributes_blank (s : Text) :
    stripAttributes (s ++ [' ']) = Text.pad (stripAttributes s) := by
  fun_induction stripAttributes s with
  | case1 s rest hsome ih =>
    rw [← ih]
    apply stripAttributes_of_dropAttribute?_some
    rw [Text.trimStart_blank, dropAttribute?_blank, hsome, Option.map_some]
  | case2 s hnone =>
    rw [stripAttributes_of_dropAttribute?, Text.trimStart_blank]
    rw [Text.trimStart_blank, dropAttribute?_blank, hnone, Option.map_none]

/-- Of the parts between separators, the last one takes the blank. -/
theorem splitTopLevel_blank {sep : Char} (hsep : ' ' ≠ sep) (s : Text) :
    ∃ front last, splitTopLevel sep s = front ++ [last] ∧
      splitTopLevel sep (s ++ [' ']) = front ++ [last ++ [' ']] :=
  splitFrom_append_of_not_mem (by simpa using Ne.symm hsep) {} s

end Code

end PhpLint
