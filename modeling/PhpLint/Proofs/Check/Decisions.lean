import Mathlib.Algebra.GroupWithZero.Nat
import PhpLint.Proofs.Check.NullOperators

/-!
What is counted as a decision on a line of code, and what a cut of the line in two does to
the count: a logical operator with nothing but the cut behind it and a ternary operator with
the cut between its question mark and its colon are not seen, and everything else is counted
on one of the two sides.
-/

namespace PhpLint.Check

variable {s t u v : Text} {c d : Char}

section Ternary

/-- Whether a question mark waits for its colon at the end of a text. -/
def waiting (w : Bool) : Text → Bool
  | [] => w
  | c :: s => waiting (if c = '?' then true else if c = ':' then false else w) s

theorem ternaryCount_append (waits : Bool) (s t : Text) :
    ternaryCount waits (s ++ t) = ternaryCount waits s + ternaryCount (waiting waits s) t := by
  induction s generalizing waits with
  | nil => simp [ternaryCount, waiting]
  | cons c s ih =>
    rw [List.cons_append, ternaryCount, ternaryCount, waiting]
    by_cases hmark : c = '?'
    · simp [hmark, ih]
    · by_cases hcolon : c = ':'
      · cases waits
        · simp [hcolon, ih]
        · simp [hcolon, ih]
          omega
      · simp [hmark, hcolon, ih]

theorem waiting_eq_true_iff (waits : Bool) (s : Text) :
    waiting waits s = true ↔
      waits = true ∧ ':' ∉ s ∨ ∃ u v, s = u ++ '?' :: v ∧ ':' ∉ v := by
  induction s generalizing waits with
  | nil => simp [waiting]
  | cons c s ih =>
    rw [waiting, ih, exists_split_cons]
    by_cases hmark : c = '?'
    · simp [hmark]
      tauto
    · by_cases hcolon : c = ':'
      · simp [hcolon]
      · simp [hmark, hcolon, Ne.symm hcolon]

/-- Whether a colon comes before any question mark. -/
def colonFirst : Text → Bool
  | [] => false
  | c :: s => c == ':' || c != '?' && colonFirst s

theorem colonFirst_eq_true_iff (s : Text) :
    colonFirst s = true ↔ ∃ u v, s = u ++ ':' :: v ∧ '?' ∉ u := by
  induction s with
  | nil => simp [colonFirst]
  | cons c s ih =>
    rw [colonFirst, exists_split_cons, Bool.or_eq_true, Bool.and_eq_true, ih, beq_iff_eq,
      bne_iff_ne]
    simp only [List.not_mem_nil, not_false_eq_true, and_true, List.mem_cons, not_or, ne_comm]
    refine or_congr_right ⟨?_, ?_⟩
    · rintro ⟨hc, u, v, hs, hu⟩
      exact ⟨u, v, hs, hc, hu⟩
    · rintro ⟨u, v, hs, hc, hu⟩
      exact ⟨hc, u, v, hs, hu⟩

theorem ternaryCount_true (s : Text) :
    ternaryCount true s = ternaryCount false s + (colonFirst s).toNat := by
  induction s with
  | nil => rfl
  | cons c s ih =>
    rw [ternaryCount, ternaryCount, colonFirst]
    by_cases hmark : c = '?'
    · simp [hmark]
    · by_cases hcolon : c = ':'
      · simp [hcolon]
      · have hne : (c == ':') = false ∧ (c != '?') = true := by simp [hmark, hcolon]
        simp [hmark, hcolon, ih, hne]

theorem ternaryCount_eq_zero_iff (waits : Bool) (s : Text) :
    ternaryCount waits s = 0 ↔
      (waits = true → ':' ∉ s) ∧ ∀ u v, s = u ++ '?' :: v → ':' ∉ v := by
  induction s generalizing waits with
  | nil => simp [ternaryCount]
  | cons c s ih =>
    have hsplit : (∀ u v, c :: s = u ++ '?' :: v → ':' ∉ v) ↔
        (c = '?' → ':' ∉ s) ∧ ∀ u v, s = u ++ '?' :: v → ':' ∉ v := by
      have hnone := not_congr (exists_split_cons (c := c) (s := s) (d := '?')
        (P := fun _ v => ':' ∈ v))
      push Not at hnone
      exact hnone
    rw [ternaryCount, hsplit]
    by_cases hmark : c = '?'
    · subst hmark
      simp [ih]
      tauto
    · by_cases hcolon : c = ':'
      · subst hcolon
        cases waits <;> simp [ih]
      · simp [hmark, hcolon, ih, Ne.symm hcolon]

end Ternary

section Logical

/-- The text ends in a logical operator. -/
def EndsInLogical (s : Text) : Prop := "&&".toList <:+ s ∨ "||".toList <:+ s

instance (s : Text) : Decidable (EndsInLogical s) := inferInstanceAs (Decidable (_ ∨ _))

theorem endsInLogical_cons :
    EndsInLogical (c :: s) ↔ c = '&' ∧ s = ['&'] ∨ c = '|' ∧ s = ['|'] ∨ EndsInLogical s := by
  simp only [EndsInLogical, List.suffix_cons_iff]
  simp
  tauto

theorem logicalCount_cons (hand : d ≠ '&') (hor : d ≠ '|') (s : Text) :
    logicalCount (d :: s) = logicalCount s := by
  simp [logicalCount, hand, hor]

/-- An operator of which only the first half can stand here. -/
theorem logicalCount_cons_of_ne (hs : s.head? ≠ some d) :
    logicalCount (d :: s) = logicalCount s := by
  rw [logicalCount]
  · rintro c r rfl rfl
    exact hs rfl
  · rintro c r rfl rfl
    exact hs rfl

theorem logicalCount_append (hc : c ≠ '&' ∧ c ≠ '|') (s t : Text) :
    logicalCount (s ++ c :: t) =
      logicalCount s + logicalCount t + if Text.isBlank c ∧ EndsInLogical s then 1 else 0 := by
  fun_induction logicalCount s with
  | case1 d s hd ih | case3 d s hd ih =>
    have hne : d ≠ '&' ∧ d ≠ '|' := by constructor <;> rintro rfl <;> cases hd
    simp [logicalCount, hd, ih, endsInLogical_cons, hne]
    omega
  | case2 d s hd ih | case4 d s hd ih =>
    simp only [List.cons_append] at ih
    simp [logicalCount, hd, ih, endsInLogical_cons]
  | case5 d s hand hor ih =>
    simp only [List.cons_append, endsInLogical_cons]
    by_cases hhalf : (d = '&' ∨ d = '|') ∧ s.head? = some d
    · -- All of the text is one operator, so that what follows decides.
      obtain ⟨hd, hhead⟩ := hhalf
      obtain rfl : s = [d] := by
        match s with
        | [] => cases hhead
        | [e] => rw [← Option.some.inj hhead]
        | e :: f :: r =>
          obtain rfl := Option.some.inj hhead
          rcases hd with rfl | rfl
          · exact absurd rfl (hand f r rfl)
          · exact absurd rfl (hor f r rfl)
      have hrest := logicalCount_cons hc.1 hc.2 t
      rcases hd with rfl | rfl
      all_goals
        by_cases hblank : Text.isBlank c
        · simp [logicalCount, hblank]
        · simp [logicalCount, hblank, hc, hrest]
    · have hskip : logicalCount (d :: (s ++ c :: t)) = logicalCount (s ++ c :: t) := by
        by_cases hd : d = '&' ∨ d = '|'
        · refine logicalCount_cons_of_ne fun hhead => ?_
          cases s with
          | nil =>
            obtain rfl := Option.some.inj hhead
            rcases hd with rfl | rfl
            · exact hc.1 rfl
            · exact hc.2 rfl
          | cons e s => exact hhalf ⟨hd, hhead⟩
        · rw [not_or] at hd
          exact logicalCount_cons hd.1 hd.2 _
      have hwhole : ¬ (d = '&' ∧ s = ['&']) ∧ ¬ (d = '|' ∧ s = ['|']) := by
        constructor <;> rintro ⟨rfl, rfl⟩ <;> exact hhalf ⟨by decide, rfl⟩
      simp only [hskip, ih, hwhole, false_or]
  | case6 => simp [logicalCount_cons hc.1 hc.2, EndsInLogical]

theorem logicalCount_eq_zero (hand : ¬ "&&".toList <:+: s) (hor : ¬ "||".toList <:+: s) :
    logicalCount s = 0 := by
  fun_induction logicalCount s with
  | case1 c s _ _ => exact absurd ⟨[], c :: s, rfl⟩ hand
  | case2 c s _ _ => exact absurd ⟨[], c :: s, rfl⟩ hand
  | case3 c s _ _ => exact absurd ⟨[], c :: s, rfl⟩ hor
  | case4 c s _ _ => exact absurd ⟨[], c :: s, rfl⟩ hor
  | case5 d s _ _ ih =>
    exact ih (fun h => hand (h.trans (List.infix_cons (List.infix_refl _))))
      (fun h => hor (h.trans (List.infix_cons (List.infix_refl _))))
  | case6 => rfl

theorem endsInLogical_dropNullOperators : EndsInLogical (dropNullOperators s) ↔ EndsInLogical s :=
  or_congr (suffix_dropNullOperators_iff (by decide)) (suffix_dropNullOperators_iff (by decide))

end Logical

/-- At the end of the text a free question mark has no colon behind it. -/
def TernaryOpen (s : Text) : Prop := ∃ u v, s = u ++ '?' :: v ∧ FreeMark u v ∧ ':' ∉ v

/-- A colon comes before any free question mark. -/
def ColonFirst (s : Text) : Prop :=
  ∃ u v, s = u ++ ':' :: v ∧ ∀ x y, u = x ++ '?' :: y → ¬ FreeMark x y

theorem waiting_dropNullOperators :
    waiting false (dropNullOperators s) = true ↔ TernaryOpen s := by
  have hcolon {v : Text} : ':' ∈ dropNullOperators v ↔ ':' ∈ v := mem_dropNullOperators (by decide)
  rw [waiting_eq_true_iff]
  constructor
  · rintro (⟨h, -⟩ | ⟨u, v, h, hv⟩)
    · cases h
    · obtain ⟨front, back, hs, hfree, rfl⟩ :=
        (marks_dropNullOperators [] (fun _ => rfl) v).mp ⟨u, v, h, rfl⟩
      exact ⟨front, back, hs, hfree, hcolon.not.mp hv⟩
  · rintro ⟨u, v, hs, hfree, hv⟩
    obtain ⟨front, back, h, rfl⟩ :=
      (marks_dropNullOperators [] (fun _ => rfl) _).mpr ⟨u, v, hs, hfree, rfl⟩
    exact .inr ⟨front, _, h, hcolon.not.mpr hv⟩

theorem mark_mem_dropNullOperators_iff :
    '?' ∈ dropNullOperators s ↔ ∃ u v, s = u ++ '?' :: v ∧ FreeMark u v := by
  constructor
  · intro h
    obtain ⟨u, v, huv⟩ := List.append_of_mem h
    obtain ⟨front, back, hs, hfree, -⟩ :=
      (marks_dropNullOperators [] (fun _ => rfl) v).mp ⟨u, v, huv, rfl⟩
    exact ⟨front, back, hs, hfree⟩
  · rintro ⟨u, v, hs, hfree⟩
    obtain ⟨front, back, h, -⟩ :=
      (marks_dropNullOperators [] (fun _ => rfl) _).mpr ⟨u, v, hs, hfree, rfl⟩
    rw [h]
    simp

theorem colonFirst_dropNullOperators :
    colonFirst (dropNullOperators s) = true ↔ ColonFirst s := by
  have hnone {u : Text} : '?' ∉ dropNullOperators u ↔
      ∀ x y, u = x ++ '?' :: y → ¬ FreeMark x y := by
    rw [mark_mem_dropNullOperators_iff]
    push Not
    rfl
  rw [colonFirst_eq_true_iff]
  constructor
  · rintro ⟨u, v, h, hu⟩
    obtain ⟨front, back, rfl, rfl, -⟩ := exists_of_dropNullOperators (by decide) h
    exact ⟨front, back, rfl, hnone.mp hu⟩
  · rintro ⟨u, v, rfl, hu⟩
    exact ⟨_, _, dropNullOperators_append (by decide) u v, hnone.mpr hu⟩

instance (s : Text) : Decidable (TernaryOpen s) :=
  decidable_of_iff _ waiting_dropNullOperators

instance (s : Text) : Decidable (ColonFirst s) :=
  decidable_of_iff _ colonFirst_dropNullOperators

/-- The decisions that a line break between two texts hides: an operator with nothing behind
it, and a question mark without its colon. -/
def hidden (s t : Text) : Nat :=
  (if EndsInLogical s then 1 else 0) + if TernaryOpen s ∧ ColonFirst t then 1 else 0

theorem ternaryCount_glue (s t : Text) (hs : waiting false s = true ↔ TernaryOpen u)
    (ht : colonFirst t = true ↔ ColonFirst v) :
    ternaryCount false (s ++ t) = ternaryCount false s + ternaryCount false t +
      if TernaryOpen u ∧ ColonFirst v then 1 else 0 := by
  rw [ternaryCount_append]
  cases hopen : waiting false s with
  | true =>
    have hu := hs.mp hopen
    rw [ternaryCount_true]
    cases hcolon : colonFirst t with
    | true => simp [hu, ht.mp hcolon]; omega
    | false =>
      have hv : ¬ ColonFirst v := fun h => by simp [ht.mpr h] at hcolon
      simp [hv]
  | false =>
    have hu : ¬ TernaryOpen u := fun h => by simp [hs.mpr h] at hopen
    simp [hu]

/-- A character that is no part of a word, a logical operator, a ternary operator or an operator
on null divides the decisions of a text. -/
theorem decisionCount_divide (hword : Text.isWord c = false)
    (hc : c ∉ ['?', '=', '-', '>', '&', '|', ':']) (s t : Text) :
    decisionCount (s ++ c :: t) = decisionCount s + decisionCount t +
      ((if Text.isBlank c ∧ EndsInLogical s then 1 else 0) +
        if TernaryOpen s ∧ ColonFirst t then 1 else 0) := by
  simp only [List.mem_cons, List.not_mem_nil, or_false, not_or] at hc
  have hnull : c ∉ ['?', '=', '-', '>'] := by simp [hc]
  have hcount : ternaryCount false (c :: dropNullOperators t) =
      ternaryCount false (dropNullOperators t) := by simp [ternaryCount, hc]
  have hcolon : colonFirst (c :: dropNullOperators t) = true ↔ ColonFirst t := by
    rw [← colonFirst_dropNullOperators]
    simp [colonFirst, hc]
  simp only [decisionCount, dropNullOperators_append hnull, branchCount, Code.words_append hword,
    List.countP_append, logicalCount_append ⟨hc.2.2.2.2.1, hc.2.2.2.2.2.1⟩,
    endsInLogical_dropNullOperators, ternaryCount_glue _ _ waiting_dropNullOperators hcolon,
    hcount]
  omega

/-- A blank in the place of a line break shows what the break hides. -/
theorem decisionCount_blank (s t : Text) :
    decisionCount (s ++ ' ' :: t) = decisionCount s + decisionCount t + hidden s t := by
  rw [decisionCount_divide (by decide) (by decide), hidden]
  simp [show Text.isBlank ' ' = true from by decide]

theorem ternaryOpen_concat (hc : c ∉ ['?', '=', '-', '>', ':']) (s : Text) :
    TernaryOpen (s ++ [c]) ↔ TernaryOpen s := by
  have hnull : c ∉ ['?', '=', '-', '>'] := fun h => hc (by simp at h ⊢; tauto)
  have hother : c ≠ '?' ∧ c ≠ ':' := by
    constructor <;> rintro rfl <;> simp at hc
  have hlast (waits : Bool) (r : Text) : waiting waits (r ++ [c]) = waiting waits r := by
    induction r generalizing waits with
    | nil => simp [waiting, hother]
    | cons d r ih => exact ih _
  rw [← waiting_dropNullOperators, ← waiting_dropNullOperators, dropNullOperators_append hnull,
    dropNullOperators, hlast]

/-- Nothing stands in for a line break within a string, whose quote is behind the first text. -/
theorem decisionCount_quote (hc : c ∈ ['\'', '"', '`']) (s t : Text) :
    decisionCount (s ++ c :: t) =
      decisionCount (s ++ [c]) + decisionCount t + hidden (s ++ [c]) t := by
  have hquote : Text.isWord c = false ∧ c ∉ ['?', '=', '-', '>', '&', '|', ':'] ∧
      Text.isBlank c = false ∧ c ∉ ['?', '=', '-', '>', ':'] ∧ c ≠ '&' ∧ c ≠ '|' := by
    simp only [List.mem_cons, List.not_mem_nil, or_false] at hc
    rcases hc with rfl | rfl | rfl <;> decide
  obtain ⟨hword, hdivides, hblank, hopen, hsign⟩ := hquote
  have hend : ¬ EndsInLogical (s ++ [c]) := by
    rintro (⟨u, hu⟩ | ⟨u, hu⟩)
    all_goals
      have hlast := congrArg List.getLast? hu
      simp at hlast
    · exact hsign.1 hlast.symm
    · exact hsign.2 hlast.symm
  have hnone : ¬ ColonFirst [] := by decide
  have hempty : decisionCount [] = 0 := rfl
  rw [decisionCount_divide hword hdivides, decisionCount_divide hword hdivides, hidden]
  simp only [hblank, hend, hnone, hempty, ternaryOpen_concat hopen]
  simp

/-- The complexity is the number of decisions on the lines of the body, and one. -/
theorem complexity_eq (lines : List Text) (start : Nat) :
    complexity lines (start + 1) =
      1 + ((Body.scan lines start).code.map fun entry => decisionCount entry.2).sum := by
  have hfold (total : Nat) (code : List (Nat × Text)) :
      code.foldl (fun total entry => total + decisionCount entry.2) total =
        total + (code.map fun entry => decisionCount entry.2).sum := by
    induction code generalizing total with
    | nil => rfl
    | cons entry code ih =>
      rw [List.foldl_cons, ih, List.map_cons, List.sum_cons, Nat.add_assoc]
  exact hfold 1 _

end PhpLint.Check
