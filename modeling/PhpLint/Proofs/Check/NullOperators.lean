import PhpLint.Check.Structure
import PhpLint.Proofs.Code.Words

/-!
The operators on null in a line of code. A question mark is free if it belongs to none of
them; with the operators replaced, the free question marks are the ones that are left, and
every other character, word and pair of signs is left as it is.
-/

namespace PhpLint.Check

variable {s t u v w : Text} {c d : Char}

attribute [local simp] dropNullOperators

/-- The number of question marks at the end of a text. -/
def marksBehind (s : Text) : Nat := (s.reverse.takeWhile (· == '?')).length

@[simp] theorem marksBehind_concat (s : Text) (c : Char) :
    marksBehind (s ++ [c]) = if c = '?' then marksBehind s + 1 else 0 := by
  by_cases hc : c = '?' <;> simp [marksBehind, hc]

/-- The question mark between two texts belongs to no operator on null. Question marks in a
row are paired from the left; the one that is left over is free unless an arrow follows. -/
def FreeMark (u v : Text) : Prop :=
  marksBehind u % 2 = 0 ∧ v.head? ≠ some '?' ∧ ¬ "->".toList <+: v

instance (u v : Text) : Decidable (FreeMark u v) := inferInstanceAs (Decidable (_ ∧ _))

theorem dropNullOperators_cons (hc : c ≠ '?') (s : Text) :
    dropNullOperators (c :: s) = c :: dropNullOperators s := by
  simp [hc]

/-- A question mark that opens no operator stays. -/
theorem dropNullOperators_mark (hmark : s.head? ≠ some '?') (harrow : ¬ "->".toList <+: s) :
    dropNullOperators ('?' :: s) = '?' :: dropNullOperators s := by
  rw [dropNullOperators]
  · rintro r - rfl
    exact hmark rfl
  · rintro r - rfl
    exact hmark rfl
  · rintro r - rfl
    exact harrow ⟨r, rfl⟩

theorem dropNullOperators_pair (hequals : s.head? ≠ some '=') :
    dropNullOperators ('?' :: '?' :: s) = ' ' :: dropNullOperators s := by
  rw [dropNullOperators]
  rintro r rfl
  exact hequals rfl

theorem dropNullOperators_append (hc : c ∉ ['?', '=', '-', '>']) (s t : Text) :
    dropNullOperators (s ++ c :: t) = dropNullOperators s ++ c :: dropNullOperators t := by
  simp only [List.mem_cons, List.not_mem_nil, or_false, not_or] at hc
  fun_induction dropNullOperators s with
  | case1 => exact dropNullOperators_cons hc.1 t
  | case2 s ih | case4 s ih => simp [ih]
  | case3 s hequals ih =>
    rw [List.cons_append, List.cons_append, dropNullOperators_pair, ih, List.cons_append]
    cases s with
    | nil => simp [hc]
    | cons d s => exact fun hd => hequals s (by rw [← Option.some.inj hd])
  | case5 d s hthree hpair harrow ih =>
    rw [List.cons_append, List.cons_append]
    by_cases hd : d = '?'
    · subst hd
      rw [dropNullOperators_mark, ih]
      · cases s with
        | nil => simp [hc]
        | cons e s => exact fun he => hpair s rfl (by rw [← Option.some.inj he])
      · rintro ⟨r, hr⟩
        match s with
        | [] => exact hc.2.2.1 (List.cons.inj hr).1.symm
        | [e] =>
          obtain ⟨-, hrest⟩ := List.cons.inj hr
          exact hc.2.2.2 (List.cons.inj hrest).1.symm
        | e :: f :: s =>
          obtain ⟨rfl, hrest⟩ := List.cons.inj hr
          obtain ⟨rfl, -⟩ := List.cons.inj hrest
          exact harrow s rfl rfl
    · rw [dropNullOperators_cons hd, ih]

/-- Behind a text, a question mark of another one that belongs to no operator on null, and in
front of it the rest without such operators. -/
def FreeIn (front s rest : Text) : Prop :=
  ∃ u v, s = u ++ '?' :: v ∧ FreeMark (front ++ u) v ∧ dropNullOperators v = rest

theorem exists_split_cons {P : Text → Text → Prop} :
    (∃ u v, c :: s = u ++ d :: v ∧ P u v) ↔
      c = d ∧ P [] s ∨ ∃ u v, s = u ++ d :: v ∧ P (c :: u) v := by
  constructor
  · rintro ⟨u, v, h, hP⟩
    cases u with
    | nil =>
      obtain ⟨rfl, rfl⟩ := List.cons.inj h
      exact .inl ⟨rfl, hP⟩
    | cons e u =>
      obtain ⟨rfl, rfl⟩ := List.cons.inj h
      exact .inr ⟨u, v, rfl, hP⟩
  · rintro (⟨rfl, hP⟩ | ⟨u, v, rfl, hP⟩)
    · exact ⟨[], s, rfl, hP⟩
    · exact ⟨c :: u, v, rfl, hP⟩

theorem freeIn_cons {front : Text} :
    FreeIn front (c :: s) w ↔
      c = '?' ∧ FreeMark front s ∧ dropNullOperators s = w ∨ FreeIn (front ++ [c]) s w := by
  rw [FreeIn, exists_split_cons]
  simp [FreeIn]

/-- What is left of the question marks once the operators on null are gone. -/
theorem marks_dropNullOperators (front : Text)
    (hfront : s.head? = some '?' → marksBehind front % 2 = 0) (w : Text) :
    (∃ u v, dropNullOperators s = u ++ '?' :: v ∧ v = w) ↔ FreeIn front s w := by
  fun_induction dropNullOperators s generalizing front with
  | case1 => simp [FreeIn]
  | case2 s ih =>
    have heven := hfront rfl
    have hmore := ih (front ++ ['?'] ++ ['?'] ++ ['=']) fun _ => by
      rw [marksBehind_concat, if_neg (by decide)]
    rw [exists_split_cons, hmore, freeIn_cons, freeIn_cons, freeIn_cons]
    simp [FreeMark, -List.append_assoc]
    omega
  | case3 s hequals ih =>
    have heven := hfront rfl
    have hmore := ih (front ++ ['?'] ++ ['?']) fun _ => by
      rw [marksBehind_concat, if_pos rfl, marksBehind_concat, if_pos rfl]
      omega
    rw [exists_split_cons, hmore, freeIn_cons, freeIn_cons]
    simp [FreeMark, -List.append_assoc]
    omega
  | case4 s ih =>
    have hmore := ih (front ++ ['?'] ++ ['-'] ++ ['>']) fun _ => by
      rw [marksBehind_concat, if_neg (by decide)]
    rw [exists_split_cons, hmore, freeIn_cons, freeIn_cons, freeIn_cons]
    simp [FreeMark, -List.append_assoc]
  | case5 d s hthree hpair harrow ih =>
    rw [exists_split_cons, freeIn_cons]
    by_cases hd : d = '?'
    · subst hd
      have heven := hfront rfl
      have hlast : s.head? ≠ some '?' := by
        cases s with
        | nil => simp
        | cons e s => exact fun he => hpair s rfl (by rw [← Option.some.inj he])
      have hfree : FreeMark front s := ⟨heven, hlast, fun ⟨r, hr⟩ => harrow r rfl hr.symm⟩
      rw [ih (front ++ ['?']) fun h => absurd h hlast]
      simp [hfree]
    · rw [ih (front ++ [d]) fun _ => by rw [marksBehind_concat, if_neg hd]]
      simp [hd]

theorem wordsFrom_dropNullOperators (current s : Text) :
    Code.wordsFrom current (dropNullOperators s) = Code.wordsFrom current s := by
  have hblank : Text.isWord ' ' = false := by decide
  have hmark : Text.isWord '?' = false ∧ Text.isWord '=' = false ∧ Text.isWord '-' = false ∧
      Text.isWord '>' = false := by decide
  fun_induction dropNullOperators s generalizing current with
  | case1 => rfl
  | case2 s ih | case3 s _ ih | case4 s ih =>
    cases current <;> simp [Code.wordsFrom, hblank, hmark, ih]
  | case5 c s _ _ _ ih => simp only [Code.wordsFrom, ih]

theorem words_dropNullOperators (s : Text) :
    Code.words (dropNullOperators s) = Code.words s := wordsFrom_dropNullOperators [] s

/-- A character that is neither a blank nor part of an operator on null is one of the text. -/
theorem exists_of_dropNullOperators (hc : c ∉ ['?', '=', '-', '>', ' '])
    (h : dropNullOperators s = u ++ c :: v) :
    ∃ front back, s = front ++ c :: back ∧ dropNullOperators front = u ∧
      dropNullOperators back = v := by
  simp only [List.mem_cons, List.not_mem_nil, or_false, not_or] at hc
  fun_induction dropNullOperators s generalizing u with
  | case1 => simp at h
  | case2 s ih | case4 s ih =>
    cases u with
    | nil => exact absurd (List.cons.inj h).1.symm hc.2.2.2.2
    | cons e u =>
      obtain ⟨rfl, hmore⟩ := List.cons.inj h
      obtain ⟨front, back, rfl, rfl, hback⟩ := ih hmore
      exact ⟨_ :: _ :: _ :: front, back, rfl, by simp, hback⟩
  | case3 s hequals ih =>
    cases u with
    | nil => exact absurd (List.cons.inj h).1.symm hc.2.2.2.2
    | cons e u =>
      obtain ⟨rfl, hmore⟩ := List.cons.inj h
      obtain ⟨front, back, rfl, rfl, hback⟩ := ih hmore
      refine ⟨'?' :: '?' :: front, back, rfl, dropNullOperators_pair ?_, hback⟩
      cases front with
      | nil => simp
      | cons d front => exact fun hd => hequals _ (by rw [← Option.some.inj hd]; rfl)
  | case5 d s hthree hpair harrow ih =>
    cases u with
    | nil =>
      obtain ⟨rfl, hv⟩ := List.cons.inj h
      exact ⟨[], s, rfl, rfl, hv⟩
    | cons e u =>
      obtain ⟨rfl, hmore⟩ := List.cons.inj h
      obtain ⟨front, back, rfl, rfl, hback⟩ := ih hmore
      refine ⟨d :: front, back, rfl, ?_, hback⟩
      by_cases hd : d = '?'
      · subst hd
        refine dropNullOperators_mark ?_ ?_
        · cases front with
          | nil => simp
          | cons d front => exact fun hd => hpair _ rfl (by rw [← Option.some.inj hd]; rfl)
        · rintro ⟨r, rfl⟩
          exact harrow (r ++ c :: back) rfl (by simp)
      · exact dropNullOperators_cons hd front

theorem mem_dropNullOperators (hc : c ∉ ['?', '=', '-', '>', ' ']) :
    c ∈ dropNullOperators s ↔ c ∈ s := by
  constructor
  · intro h
    obtain ⟨u, v, huv⟩ := List.append_of_mem h
    obtain ⟨front, back, rfl, -⟩ := exists_of_dropNullOperators hc huv
    simp
  · intro h
    obtain ⟨u, v, rfl⟩ := List.append_of_mem h
    rw [dropNullOperators_append (fun hmem => hc (by simp at hmem ⊢; tauto))]
    simp

theorem dropNullOperators_eq_nil_iff : dropNullOperators s = [] ↔ s = [] := by
  fun_cases dropNullOperators s <;> simp

/-- Two signs in a row, of which no operator on null is made, stand in a row in the text. -/
theorem exists_pair_of_dropNullOperators (hc : c ∉ ['?', '=', '-', '>', ' '])
    (h : dropNullOperators s = u ++ c :: c :: v) :
    ∃ front back, s = front ++ c :: c :: back ∧ dropNullOperators back = v := by
  obtain ⟨front, back, rfl, -, hback⟩ := exists_of_dropNullOperators hc h
  obtain ⟨middle, rest, rfl, hmiddle, hrest⟩ :=
    exists_of_dropNullOperators (u := []) hc hback
  obtain rfl := dropNullOperators_eq_nil_iff.mp hmiddle
  exact ⟨front, rest, rfl, hrest⟩

theorem infix_of_dropNullOperators (hc : c ∉ ['?', '=', '-', '>', ' '])
    (h : [c, c] <:+: dropNullOperators s) : [c, c] <:+: s := by
  obtain ⟨u, v, huv⟩ := h
  obtain ⟨front, back, rfl, -⟩ := exists_pair_of_dropNullOperators (s := s) (u := u) (v := v) hc
    (by simpa using huv.symm)
  exact ⟨front, back, by simp⟩

theorem suffix_dropNullOperators_iff (hc : c ∉ ['?', '=', '-', '>', ' ']) :
    [c, c] <:+ dropNullOperators s ↔ [c, c] <:+ s := by
  constructor
  · rintro ⟨u, hu⟩
    obtain ⟨front, back, rfl, hback⟩ := exists_pair_of_dropNullOperators hc hu.symm
    obtain rfl := dropNullOperators_eq_nil_iff.mp hback
    exact ⟨front, rfl⟩
  · rintro ⟨u, rfl⟩
    have hc' : c ∉ ['?', '=', '-', '>'] := fun hmem => hc (by simp at hmem ⊢; tauto)
    have hpair : dropNullOperators [c, c] = [c, c] := by
      have hne : c ≠ '?' := fun h => hc (by simp [h])
      rw [dropNullOperators_cons hne, dropNullOperators_cons hne, dropNullOperators]
    rw [dropNullOperators_append hc' u [c],
      ← dropNullOperators_cons (by rintro rfl; simp at hc) [c], hpair]
    exact ⟨_, rfl⟩

end PhpLint.Check
