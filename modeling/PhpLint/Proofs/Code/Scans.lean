import PhpLint.Code.Scrubber

/-!
The steps of a scrubber through the rest of a line, one for each thing that it can meet. The
relation `Scans` tells at once what is returned with literals and without them, and in which
mode the end of the line is reached; it is what the scrubber computes, and every property of
the rest of a line is proved along its steps.
-/

namespace PhpLint.Scrubber

/-- Whether a block comment ends with the start of the text. -/
def endsComment : Text → Bool
  | '*' :: '/' :: _ => true
  | _ => false

/-- Whether a comment or a heredoc starts with the text. -/
def opensComment : Text → Bool
  | '/' :: '/' :: _ | '/' :: '*' :: _ => true
  | '#' :: '[' :: _ => false
  | '#' :: _ => true
  | '<' :: '<' :: '<' :: rest => (heredocLabel? rest).isSome
  | _ => false

/-- The mode behind a character of plain code. -/
def modeAfter (c : Char) : ScrubMode := if c = '\'' ∨ c = '"' ∨ c = '`' then .literal c else .code

/-- A character of code and the text behind it: the start of an attribute, that of a heredoc
without a label, or anything that starts neither a comment nor a heredoc. -/
inductive StartsCode : Char → Text → Prop where
  | group {rest : Text} : StartsCode '#' ('[' :: rest)
  | unlabelled {rest : Text} (hlabel : heredocLabel? rest = none) :
      StartsCode '<' ('<' :: '<' :: rest)
  | other {c : Char} {rest : Text} (hslashes : ∀ more, c = '/' → rest ≠ '/' :: more)
      (hblock : ∀ more, c = '/' → rest ≠ '*' :: more) (hhash : c ≠ '#')
      (hheredoc : ∀ more, c = '<' → rest ≠ '<' :: '<' :: more) : StartsCode c rest

theorem opensComment_eq_false_iff {c : Char} {rest : Text} :
    opensComment (c :: rest) = false ↔ StartsCode c rest := by
  constructor
  · intro h
    unfold opensComment at h
    split at h
    · cases h
    · cases h
    · rename_i heq
      obtain ⟨rfl, rfl⟩ := List.cons.inj heq
      exact .group
    · cases h
    · rename_i heq
      obtain ⟨rfl, rfl⟩ := List.cons.inj heq
      rw [Option.isSome_eq_false_iff, Option.isNone_iff_eq_none] at h
      exact .unlabelled h
    · rename_i hslashes hblock _ hhash hheredoc
      refine .other ?_ ?_ ?_ ?_
      · exact fun more hc hrest => hslashes more (by rw [hc, hrest])
      · exact fun more hc hrest => hblock more (by rw [hc, hrest])
      · exact fun hc => hhash rest (by rw [hc])
      · exact fun more hc hrest => hheredoc more (by rw [hc, hrest])
  · intro h
    cases h with
    | group => rfl
    | unlabelled hlabel => rw [opensComment, hlabel, Option.isSome_none]
    | other hslashes hblock hhash hheredoc =>
      unfold opensComment
      split
      · rename_i more heq
        exact absurd (List.cons.inj heq).2 (hslashes more (List.cons.inj heq).1)
      · rename_i more heq
        exact absurd (List.cons.inj heq).2 (hblock more (List.cons.inj heq).1)
      · rfl
      · rename_i heq
        exact absurd (List.cons.inj heq).1 hhash
      · rename_i more heq
        exact absurd (List.cons.inj heq).2 (hheredoc more (List.cons.inj heq).1)
      · rfl

/-- Read in the first mode, the text leads to the second one; what is returned of it is the
first text if literals are kept, and the second one if they are dropped. -/
inductive Scans : ScrubMode → Text → Text → Text → ScrubMode → Prop where
  | nil {mode : ScrubMode} : Scans mode [] [] [] mode
  | heredoc {label line : Text} : Scans (.heredoc label) line line [] (.heredoc label)
  | comment {c : Char} {rest kept code : Text} {m : ScrubMode}
      (hends : endsComment (c :: rest) = false) (h : Scans .comment rest kept code m) :
      Scans .comment (c :: rest) kept code m
  | endsComment {rest kept code : Text} {m : ScrubMode} (h : Scans .code rest kept code m) :
      Scans .comment ('*' :: '/' :: rest) (' ' :: kept) (' ' :: code) m
  /-- A backslash hides the next character, unless it is the last one of its line. -/
  | backslash {q : Char} : Scans (.literal q) ['\\'] ['\\'] [] (.literal q)
  | escaped {q c : Char} {rest kept code : Text} {m : ScrubMode}
      (h : Scans (.literal q) rest kept code m) :
      Scans (.literal q) ('\\' :: c :: rest) ('\\' :: c :: kept) code m
  | quoted {q c : Char} {rest kept code : Text} {m : ScrubMode} (hc : c ≠ q ∧ c ≠ '\\')
      (h : Scans (.literal q) rest kept code m) : Scans (.literal q) (c :: rest) (c :: kept) code m
  | closes {q : Char} {rest kept code : Text} {m : ScrubMode} (hq : q ≠ '\\')
      (h : Scans .code rest kept code m) : Scans (.literal q) (q :: rest) (q :: kept) (q :: code) m
  | slashes {rest : Text} : Scans .code ('/' :: '/' :: rest) [] [] .code
  | hash {rest : Text} (hattribute : ∀ more, rest ≠ '[' :: more) :
      Scans .code ('#' :: rest) [] [] .code
  | opensComment {rest kept code : Text} {m : ScrubMode} (h : Scans .comment rest kept code m) :
      Scans .code ('/' :: '*' :: rest) kept code m
  | opensHeredoc {rest label : Text} (hlabel : heredocLabel? rest = some label) :
      Scans .code ('<' :: '<' :: '<' :: rest) ('<' :: '<' :: '<' :: rest) ['"', '"']
        (.heredoc label)
  /-- What opens neither a comment nor a heredoc is code, and may be the quote of a literal. -/
  | char {c : Char} {rest kept code : Text} {m : ScrubMode}
      (hopens : opensComment (c :: rest) = false) (h : Scans (modeAfter c) rest kept code m) :
      Scans .code (c :: rest) (c :: kept) (c :: code) m

/-- A character of a block comment that does not end it is dropped. -/
theorem scan_comment_char {c : Char} {rest : Text} (h : endsComment (c :: rest) = false)
    (keep : Bool) : scan keep .comment (c :: rest) = scan keep .comment rest := by
  rw [scan]
  rintro more rfl rfl
  cases h

/-- A character of a literal that is no backslash stands for itself. -/
theorem scan_literal_char {q c : Char} (hc : c ≠ '\\') (keep : Bool) (line : Text) :
    scan keep (.literal q) (c :: line) =
      if c = q then (c :: (scan keep .code line).1, (scan keep .code line).2)
      else
        (if keep then c :: (scan keep (.literal q) line).1 else (scan keep (.literal q) line).1,
          (scan keep (.literal q) line).2) := by
  rw [scan]
  · exact fun h _ => hc h
  · exact fun _ _ h _ => hc h

/-- A character of a string that is hidden by no backslash and hides none. -/
theorem ne_backslash {c : Char} {rest : Text} (hlast : c = '\\' → rest = [] → False)
    (hescape : ∀ d more, c = '\\' → rest = d :: more → False) : c ≠ '\\' := by
  cases rest with
  | nil => exact fun hc => hlast hc rfl
  | cons d more => exact fun hc => hescape d more hc rfl

theorem scan_hash {rest : Text} (h : ∀ more, rest ≠ '[' :: more) (keep : Bool) :
    scan keep .code ('#' :: rest) = ([], .code) := by
  rw [scan]
  exact h

/-- What opens neither a comment nor a heredoc is code. -/
theorem scan_code {c : Char} {rest : Text} (h : opensComment (c :: rest) = false) (keep : Bool) :
    scan keep .code (c :: rest) =
      (c :: (scan keep (modeAfter c) rest).1, (scan keep (modeAfter c) rest).2) := by
  cases opensComment_eq_false_iff.mp h with
  | group => simp [scan, modeAfter]
  | unlabelled hlabel => simp [scan, modeAfter, hlabel]
  | other hslashes hblock hhash hheredoc =>
    rw [scan]
    · rfl
    · exact hslashes
    · exact hblock
    · exact fun _ hc _ => hhash hc
    · exact hhash
    · exact hheredoc

/-- A step of the relation is a step of the scrubber. -/
theorem Scans.scan_eq {mode m : ScrubMode} {line kept code : Text}
    (h : Scans mode line kept code m) (keep : Bool) :
    scan keep mode line = (if keep then kept else code, m) := by
  induction h with
  | nil => cases keep <;> simp [scan]
  | @heredoc label line => cases line <;> simp [scan]
  | comment hends h ih => rw [scan_comment_char hends, ih]
  | endsComment h ih => cases keep <;> simp [scan, ih]
  | backslash => simp [scan]
  | escaped h ih => cases keep <;> simp [scan, ih]
  | quoted hc h ih =>
    rw [scan_literal_char hc.2, if_neg hc.1, ih]
    cases keep <;> rfl
  | closes hq h ih =>
    rw [scan_literal_char hq, if_pos rfl, ih]
    cases keep <;> rfl
  | slashes => simp [scan]
  | hash hattribute => simp [scan_hash hattribute]
  | opensComment h ih => rw [scan, ih]
  | opensHeredoc hlabel => simp [scan, hlabel]
  | char hopens h ih =>
    rw [scan_code hopens, ih]
    cases keep <;> rfl

/-- There is a step for whatever the scrubber meets. -/
theorem exists_scans (mode : ScrubMode) (line : Text) :
    ∃ kept code m, Scans mode line kept code m := by
  fun_induction scan false mode line with
  | case1 mode => exact ⟨_, _, _, .nil⟩
  | case2 label line => exact ⟨_, _, _, .heredoc⟩
  | case3 rest out mode hscan ih =>
    obtain ⟨kept, code, m, h⟩ := ih
    exact ⟨_, _, _, .endsComment h⟩
  | case4 c rest hends ih =>
    obtain ⟨kept, code, m, h⟩ := ih
    refine ⟨_, _, _, .comment ?_ h⟩
    unfold endsComment
    split
    · rename_i heq
      exact (hends _ (List.cons.inj heq).1 (List.cons.inj heq).2).elim
    · rfl
  | case5 q => exact ⟨_, _, _, .backslash⟩
  | case6 q c rest out mode hscan ih =>
    obtain ⟨kept, code, m, h⟩ := ih
    exact ⟨_, _, _, .escaped h⟩
  | case7 q rest hlast hescape out mode hscan ih =>
    obtain ⟨kept, code, m, h⟩ := ih
    exact ⟨_, _, _, .closes (ne_backslash hlast hescape) h⟩
  | case8 q c rest hlast hescape hne out mode hscan ih =>
    obtain ⟨kept, code, m, h⟩ := ih
    exact ⟨_, _, _, .quoted ⟨hne, ne_backslash hlast hescape⟩ h⟩
  | case9 rest => exact ⟨_, _, _, .slashes⟩
  | case10 rest ih =>
    obtain ⟨kept, code, m, h⟩ := ih
    exact ⟨_, _, _, .opensComment h⟩
  | case11 rest out mode hscan ih =>
    obtain ⟨kept, code, m, h⟩ := ih
    exact ⟨_, _, _, .char rfl (.char rfl h)⟩
  | case12 rest hattribute => exact ⟨_, _, _, .hash hattribute⟩
  | case13 rest label hlabel => exact ⟨_, _, _, .opensHeredoc hlabel⟩
  | case14 rest hlabel out mode hscan ih =>
    obtain ⟨kept, code, m, h⟩ := ih
    exact ⟨_, _, _, .char (opensComment_eq_false_iff.mpr (.unlabelled hlabel)) h⟩
  | case15 c rest hslashes hblock _ hhash hheredoc next out mode hscan ih =>
    obtain ⟨kept, code, m, h⟩ := ih
    have hcode : StartsCode c rest := .other hslashes hblock hhash hheredoc
    exact ⟨_, _, _, .char (opensComment_eq_false_iff.mpr hcode) h⟩

/-- The scrubber takes the steps of the relation, in the same mode with and without literals. -/
theorem scans (mode : ScrubMode) (line : Text) :
    Scans mode line (scan true mode line).1 (scan false mode line).1 (scan false mode line).2 := by
  obtain ⟨kept, code, m, h⟩ := exists_scans mode line
  rw [h.scan_eq true, h.scan_eq false]
  exact h

/-- What another character stands behind starts as it starts itself. -/
theorem eq_cons_of_append_cons {s t r : Text} {c e : Char} (hc : c ≠ e)
    (h : s ++ e :: t = c :: r) : ∃ rest, s = c :: rest := by
  cases s with
  | nil => exact absurd (List.cons.inj h).1.symm hc
  | cons d rest => exact ⟨rest, by rw [(List.cons.inj h).1]⟩

section Append

variable {c e : Char} {rest : Text}

/-- A character that is no slash ends no block comment with what stands in front of it. -/
theorem endsComment_append (h : endsComment (c :: rest) = false) (he : e ≠ '/') (t : Text) :
    endsComment (c :: (rest ++ e :: t)) = false := by
  unfold endsComment
  split
  · rename_i heq
    obtain ⟨rfl, hrest⟩ := List.cons.inj heq
    obtain ⟨more, rfl⟩ := eq_cons_of_append_cons he.symm hrest
    cases h
  · rfl

/-- A text starts as before with a character behind it that belongs to no opening of a comment
or a heredoc, unless the label of a heredoc follows. -/
theorem opensComment_append (h : opensComment (c :: rest) = false) (he : e ∉ ['/', '*', '<'])
    {t : Text} (hlabel : ∀ more, c :: rest = '<' :: '<' :: '<' :: more →
      heredocLabel? more = none → heredocLabel? (more ++ e :: t) = none) :
    opensComment (c :: (rest ++ e :: t)) = false := by
  simp only [List.mem_cons, List.not_mem_nil, or_false, not_or] at he
  obtain ⟨hslash, hstar, hangle⟩ := he
  rw [opensComment_eq_false_iff] at h ⊢
  cases h with
  | group => exact .group
  | unlabelled hnone => exact .unlabelled (hlabel _ rfl hnone)
  | other hslashes hblock hhash hheredoc =>
    refine .other ?_ ?_ hhash ?_
    · intro more hc hrest
      obtain ⟨front, rfl⟩ := eq_cons_of_append_cons (Ne.symm hslash) hrest
      exact hslashes front hc rfl
    · intro more hc hrest
      obtain ⟨front, rfl⟩ := eq_cons_of_append_cons (Ne.symm hstar) hrest
      exact hblock front hc rfl
    · intro more hc hrest
      obtain ⟨second, rfl⟩ := eq_cons_of_append_cons (Ne.symm hangle) hrest
      obtain ⟨third, rfl⟩ := eq_cons_of_append_cons (Ne.symm hangle) (List.cons.inj hrest).2
      exact hheredoc third hc rfl

end Append

end PhpLint.Scrubber
