import Mathlib.Data.List.Induction
import PhpLint.Proofs.Code.Enclosed
import PhpLint.Proofs.Text.Basic

/-!
Splitting a text at its top-level separators. Nothing is lost, since the parts with the
separator between them are the text, and nothing is left to split: every part is one part
again when it is read on its own. What carries this is that a separator is only seen where
no bracket and no quote is open, and that what is read there does not depend on anything
that stands in front.
-/

namespace PhpLint

namespace QuoteState

variable {quotes : QuoteState} {c : Char}

/-- What is open, if anything, is a single or a double quote. -/
def Marked : QuoteState → Prop
  | .outside => True
  | .inside q => q = '\'' ∨ q = '"'
  | .escaped q => q = '\'' ∨ q = '"'

theorem Marked.step (h : quotes.Marked) (c : Char) : (quotes.step c).Marked := by
  cases quotes with
  | outside =>
    rw [QuoteState.step]
    split
    · rename_i hc
      exact hc
    · exact trivial
  | inside q =>
    rw [QuoteState.step]
    split
    · exact h
    · split
      · exact trivial
      · exact h
  | escaped q => exact h

/-- Only a quote leads out of a quoted stretch. -/
theorem Marked.outside (h : quotes.Marked) (hc : c ≠ '\'' ∧ c ≠ '"')
    (hstep : quotes.step c = .outside) : quotes = .outside := by
  cases quotes with
  | outside => rfl
  | inside q =>
    have hne : c ≠ q := by
      rintro rfl
      exact h.elim hc.1 hc.2
    rw [QuoteState.step, if_neg hne] at hstep
    split at hstep <;> cases hstep
  | escaped q => cases hstep

end QuoteState

namespace Code

variable {sep c : Char} {n : Nesting} {s : Text}

theorem join_splitFrom (sep : Char) (n : Nesting) (s : Text) :
    Text.join [sep] (splitFrom sep n s) = s := by
  induction s generalizing n with
  | nil => rfl
  | cons c s ih =>
    have hrest := ih (n.step c)
    obtain ⟨part, parts, hparts⟩ := List.exists_cons_of_ne_nil (splitFrom_ne_nil sep (n.step c) s)
    rw [hparts] at hrest
    rw [splitFrom, hparts]
    split
    · rename_i hsep
      obtain ⟨rfl, -⟩ := Nesting.separates_iff.mp hsep
      rw [Text.join, hrest]
      rfl
    · rw [← hrest]
      cases parts <;> rfl

theorem prefix_of_splitFrom {part : Text} {parts : List Text}
    (h : splitFrom sep n s = part :: parts) : part <+: s := by
  have hjoin := join_splitFrom sep n s
  rw [h] at hjoin
  cases parts with
  | nil => exact hjoin ▸ List.prefix_rfl
  | cons next parts =>
    rw [Text.join, List.append_assoc] at hjoin
    exact ⟨_, hjoin⟩

/-- A separator at the top divides what is in front of it from what is behind it. -/
theorem splitFrom_append_top (hsep : sep ∉ nestingChars)
    (htop : (s.foldl Nesting.step n).atTop = true) (t : Text) :
    splitFrom sep n (s ++ sep :: t) = splitFrom sep n s ++ splitTopLevel sep t := by
  induction s generalizing n with
  | nil =>
    have hnil : IsPart sep n [] := isPart_nil_iff.mpr htop
    rw [splitFrom_append hnil hsep, splitFrom_top rfl]
    rfl
  | cons c s ih =>
    have hrest := ih htop
    obtain ⟨part, parts, hparts⟩ := List.exists_cons_of_ne_nil (splitFrom_ne_nil sep (n.step c) s)
    rw [List.cons_append, splitFrom, splitFrom, hrest, hparts]
    split <;> rfl

/-- A text in which no separator is seen goes to the first of the parts behind it. -/
theorem splitFrom_append_unbroken (h : Unbroken sep n s) (t : Text) :
    ∃ part parts, splitFrom sep (s.foldl Nesting.step n) t = part :: parts ∧
      splitFrom sep n (s ++ t) = (s ++ part) :: parts := by
  induction s generalizing n with
  | nil =>
    obtain ⟨part, parts, hparts⟩ := List.exists_cons_of_ne_nil (splitFrom_ne_nil sep n t)
    exact ⟨part, parts, hparts, hparts⟩
  | cons c s ih =>
    obtain ⟨hc, hmore⟩ := unbroken_cons_iff.mp h
    obtain ⟨part, parts, hparts, hsplit⟩ := ih hmore
    refine ⟨part, parts, hparts, ?_⟩
    rw [List.cons_append, splitFrom, hc, if_neg (by simp), hsplit]
    rfl

/-- The characters of a class without brackets, quotes and the separator are none of these. -/
theorem plain_of_class {p : Char → Bool} (hp : (sep :: nestingChars).any p = false)
    (hc : p c = true) : c ∉ nestingChars ∧ c ≠ sep := by
  have hnot := Text.not_mem_of_class hc hp
  rw [List.mem_cons, not_or] at hnot
  exact hnot.symm

theorem unbroken_of_not_mem (h : sep ∉ s) : Unbroken sep n s := by
  induction s generalizing n with
  | nil => rfl
  | cons c s ih =>
    rw [List.mem_cons, not_or] at h
    exact unbroken_cons_iff.mpr ⟨by simp [Nesting.separates, Ne.symm h.1], ih h.2⟩

/-- Of the parts, the last one takes what stands behind without a separator. -/
theorem splitFrom_append_of_not_mem {back : Text} (hback : sep ∉ back) (n : Nesting) (s : Text) :
    ∃ front last, splitFrom sep n s = front ++ [last] ∧
      splitFrom sep n (s ++ back) = front ++ [last ++ back] := by
  induction s generalizing n with
  | nil => exact ⟨[], [], rfl, unbroken_of_not_mem hback⟩
  | cons c s ih =>
    obtain ⟨front, last, hs, happend⟩ := ih (n.step c)
    rw [List.cons_append, splitFrom, splitFrom, hs, happend]
    split
    · exact ⟨[] :: front, last, rfl, rfl⟩
    · cases front with
      | nil => exact ⟨[], c :: last, rfl, rfl⟩
      | cons part front => exact ⟨(c :: part) :: front, last, rfl, rfl⟩

/-- Behind the top, what is open at the end of a text depends on that text alone. -/
theorem Nesting.atTop_foldl (htop : n.atTop = true) (s : Text) :
    (s.foldl Nesting.step n).atTop = (s.foldl Nesting.step {}).atTop := by
  cases s with
  | nil => exact htop
  | cons c s => rw [List.foldl_cons, List.foldl_cons, Nesting.step_top htop]

/-- A front without brackets, quotes and separators leaves no trace. -/
theorem unbroken_plain_append_iff {front : Text}
    (hfront : ∀ c ∈ front, c ∉ nestingChars ∧ c ≠ sep) :
    Unbroken sep {} (front ++ s) ↔ Unbroken sep {} s := by
  have hpart : IsPart sep {} front := .of_plain rfl hfront
  have hunbroken : Unbroken sep {} front := hpart.split_eq
  rw [unbroken_append_iff, and_iff_right hunbroken, Unbroken, Unbroken,
    splitFrom_top hpart.closed]
  rfl

theorem atTop_plain_append {front : Text} (hfront : ∀ c ∈ front, c ∉ nestingChars) (s : Text) :
    ((front ++ s).foldl Nesting.step {}).atTop = (s.foldl Nesting.step {}).atTop := by
  rw [List.foldl_append, Nesting.atTop_foldl (Nesting.atTop_foldl_plain rfl hfront)]

theorem Nesting.marked_foldl (s : Text) : (s.foldl Nesting.step {}).quotes.Marked := by
  induction s using List.reverseRecOn with
  | nil => exact trivial
  | append_singleton s c ih =>
    rw [List.foldl_concat]
    exact ih.step c

/-- A back without brackets and quotes closes nothing. -/
theorem atTop_of_append_plain {back : Text} (hback : ∀ c ∈ back, c ∉ nestingChars)
    (h : ((s ++ back).foldl Nesting.step {}).atTop = true) :
    (s.foldl Nesting.step {}).atTop = true := by
  induction back using List.reverseRecOn with
  | nil => rwa [List.append_nil] at h
  | append_singleton back c ih =>
    have hc := hback c (by simp)
    simp only [nestingChars, List.mem_cons, List.not_mem_nil, or_false, not_or] at hc
    refine ih (fun d hd => hback d (List.mem_append_left _ hd)) ?_
    rw [← List.append_assoc, List.foldl_concat] at h
    generalize hn : (s ++ back).foldl Nesting.step {} = n at h ⊢
    have hmarked : n.quotes.Marked := hn ▸ Nesting.marked_foldl (s ++ back)
    simp only [Nesting.atTop, Bool.and_eq_true, beq_iff_eq] at h ⊢
    have hquotes : n.quotes = .outside := hmarked.outside ⟨by simp [hc], by simp [hc]⟩ h.2
    have hdepth : (n.step c).depth = n.depth := by
      simp [Nesting.step, hquotes, isOpening, isClosing, hc]
    exact ⟨hdepth ▸ h.1, hquotes⟩

/-- A pair of brackets at the end closes nothing else. -/
theorem atTop_of_append_brackets (h : ((s ++ ['[', ']']).foldl Nesting.step {}).atTop = true) :
    (s.foldl Nesting.step {}).atTop = true := by
  rw [List.foldl_append] at h
  generalize hn : s.foldl Nesting.step {} = n at h ⊢
  have hmarked : n.quotes.Marked := hn ▸ Nesting.marked_foldl s
  simp only [Nesting.atTop, Bool.and_eq_true, beq_iff_eq, List.foldl_cons, List.foldl_nil] at h ⊢
  have hinner : n.quotes.step '[' = .outside := (hmarked.step '[').outside (by decide) h.2
  have hquotes : n.quotes = .outside := hmarked.outside (by decide) hinner
  have hdepth : ((n.step '[').step ']').depth = n.depth := by
    simp [Nesting.step, hquotes, QuoteState.step, isOpening, isClosing]
  exact ⟨hdepth ▸ h.1, hquotes⟩

/-- Texts with separators between them are split again if nothing is open at the end of any
but the last. -/
theorem splitTopLevel_join_last (hsep : sep ∉ nestingChars) {parts : List Text} (hne : parts ≠ [])
    (hfront : ∀ p ∈ parts.dropLast, (p.foldl Nesting.step {}).atTop = true)
    (hparts : ∀ p ∈ parts, Unbroken sep {} p) :
    splitTopLevel sep (Text.join [sep] parts) = parts := by
  match parts with
  | [] => exact absurd rfl hne
  | [p] => exact hparts p List.mem_cons_self
  | p :: q :: rest =>
    rw [List.dropLast_cons_cons, List.forall_mem_cons] at hfront
    rw [List.forall_mem_cons] at hparts
    have hrest := splitTopLevel_join_last hsep (List.cons_ne_nil q rest) hfront.2 hparts.2
    rw [Text.join, List.append_assoc, List.singleton_append, splitTopLevel,
      splitFrom_append ⟨hparts.1, hfront.1⟩ hsep, splitFrom_top rfl, hrest]

/-- Either no separator is found, or the text up to the first one is a part. -/
theorem splitFrom_cases (sep : Char) (n : Nesting) (s : Text) :
    splitFrom sep n s = [s] ∨
      sep ∉ nestingChars ∧ ∃ p t, s = p ++ sep :: t ∧ IsPart sep n p := by
  induction s generalizing n with
  | nil => exact .inl rfl
  | cons c s ih =>
    cases hc : n.separates sep c with
    | true =>
      obtain ⟨rfl, htop, hsep⟩ := Nesting.separates_iff.mp hc
      exact .inr ⟨hsep, [], s, rfl, isPart_nil_iff.mpr htop⟩
    | false =>
      rcases ih (n.step c) with hone | ⟨hsep, p, t, rfl, hpart⟩
      · exact .inl (by rw [splitFrom, hc, if_neg (by simp), hone])
      · exact .inr ⟨hsep, c :: p, t, rfl, isPart_cons_iff.mpr ⟨hc, hpart⟩⟩

/-- A text that is no part of its own is cut short at a separator, or goes on with what
stands behind it. -/
theorem exists_head_of_not_isPart (hpart : ¬ IsPart sep {} s) {rest : Text}
    (hrest : rest = [] → (s.foldl Nesting.step {}).atTop = true) :
    ∃ part parts, splitTopLevel sep (s ++ rest) = part :: parts ∧
      ((∃ behind, s = part ++ sep :: behind) ∨
        ∃ c more, c ∈ rest.head? ∧ part = s ++ c :: more) := by
  rcases splitFrom_cases sep {} s with hone | ⟨hsep, front, behind, rfl, hfront⟩
  · have hopen : (s.foldl Nesting.step {}).atTop = false := by
      by_contra htop
      exact hpart ⟨hone, Bool.not_eq_false _ ▸ htop⟩
    cases rest with
    | nil => exact absurd (hrest rfl) (by simp [hopen])
    | cons c rest =>
      obtain ⟨part, parts, hparts, hsplit⟩ := splitFrom_append_unbroken hone (c :: rest)
      have hseparates : (s.foldl Nesting.step {}).separates sep c = false := by
        simp [Nesting.separates, hopen]
      obtain ⟨more, others, hmore⟩ := List.exists_cons_of_ne_nil
        (splitFrom_ne_nil sep ((s.foldl Nesting.step {}).step c) rest)
      rw [splitFrom, hseparates, if_neg (by simp), hmore] at hparts
      obtain ⟨rfl, rfl⟩ := List.cons.inj hparts
      exact ⟨_, _, hsplit, .inr ⟨c, more, rfl, rfl⟩⟩
  · rw [List.append_assoc, List.cons_append]
    exact ⟨front, _, splitFrom_append hfront hsep _, .inl ⟨behind, rfl⟩⟩

/-- Read on its own, every part is one part, and of all but the last nothing is open at the
end. -/
theorem parts_splitTopLevel (sep : Char) (s : Text) :
    (∀ p ∈ splitTopLevel sep s, splitTopLevel sep p = [p]) ∧
      ∀ p ∈ (splitTopLevel sep s).dropLast, sep ∉ nestingChars ∧ IsPart sep {} p := by
  rcases splitFrom_cases sep {} s with hone | ⟨hsep, p, t, hs, hpart⟩
  · have hself : splitTopLevel sep s = [s] := hone
    simp [hself]
  · have hshorter : t.length < s.length := by
      simp [hs]
      omega
    obtain ⟨hparts, hfront⟩ := parts_splitTopLevel sep t
    have hsplit : splitTopLevel sep (p ++ sep :: t) = p :: splitTopLevel sep t := by
      have happend := splitFrom_append_top hsep hpart.closed t
      rw [hpart.split_eq] at happend
      exact happend
    have hne : splitTopLevel sep t ≠ [] := splitFrom_ne_nil sep {} t
    rw [hs, hsplit, List.dropLast_cons_of_ne_nil hne]
    refine ⟨List.forall_mem_cons.mpr ⟨hpart.split_eq, hparts⟩, ?_⟩
    exact List.forall_mem_cons.mpr ⟨⟨hsep, hpart⟩, hfront⟩
termination_by s.length
decreasing_by exact hshorter

/-- A top-level split loses nothing and leaves nothing to split. Its parts with the separator
between them are the text; each of them is one part again on its own; all but the last end
outside brackets and quotes, so that they are split off whatever follows. And it does split:
behind any text that ends outside brackets and quotes, a separator that is no bracket and no
quote starts a new part. -/
theorem splitTopLevel_lossless (sep : Char) (s : Text) :
    Text.join [sep] (splitTopLevel sep s) = s ∧
      (∀ p ∈ splitTopLevel sep s, splitTopLevel sep p = [p]) ∧
      (∀ p ∈ (splitTopLevel sep s).dropLast, (p.foldl Nesting.step {}).atTop = true ∧
        ∀ q, splitTopLevel sep (p ++ sep :: q) = p :: splitTopLevel sep q) ∧
      (sep ∉ nestingChars → (s.foldl Nesting.step {}).atTop = true →
        ∀ q, splitTopLevel sep (s ++ sep :: q) = splitTopLevel sep s ++ splitTopLevel sep q) := by
  obtain ⟨hparts, hfront⟩ := parts_splitTopLevel sep s
  refine ⟨join_splitFrom sep {} s, hparts, fun p hp => ?_, splitFrom_append_top⟩
  obtain ⟨hsep, hpart⟩ := hfront p hp
  refine ⟨hpart.closed, fun q => ?_⟩
  have happend : splitTopLevel sep (p ++ sep :: q) = splitTopLevel sep p ++ splitTopLevel sep q :=
    splitFrom_append_top hsep hpart.closed q
  have hself : splitTopLevel sep p = [p] := hpart.split_eq
  rw [happend, hself, List.singleton_append]

theorem splitTopLevel_lossless_quoted :
    "f(\",\") => 1".toList ∈ (splitTopLevel ',' "f(\",\") => 1,g>".toList).dropLast ∧
      ∀ q, splitTopLevel ',' ("f(\",\") => 1".toList ++ ',' :: q) =
        "f(\",\") => 1".toList :: splitTopLevel ',' q := by
  have hpart : "f(\",\") => 1".toList ∈ (splitTopLevel ',' "f(\",\") => 1,g>".toList).dropLast := by
    decide
  obtain ⟨-, -, hfront, -⟩ := splitTopLevel_lossless ',' "f(\",\") => 1,g>".toList
  exact ⟨hpart, (hfront _ hpart).2⟩

end Code

end PhpLint
