import PhpLint.Proofs.Code.LineBreak
import PhpLint.Proofs.Code.Uncommented

/-!
The text of a line without its comments, every character of it marked as standing in code or
inside a literal. The marked text is what the scrubber that keeps literals returns, and it
determines what the other one returns: code is shown as it stands, the inside of a literal is
not, and a heredoc shows a pair of quotes where it opens and where it closes. But for these
quotes and the blank that a comment leaves, all that is shown stands in the line.
-/

namespace PhpLint

/-- The characters of a text, with `true` for those inside a literal. -/
abbrev MarkedText := List (Char × Bool)

/-- The mode without comments, which leave no trace in the text. -/
def ScrubMode.uncommented : ScrubMode → ScrubMode
  | .comment => .code
  | mode => mode

namespace Scrubber

/-- The rest of a line without comments, marked; a quote that opens or closes a string is
code, and the label of a heredoc belongs to the heredoc. -/
def mark : ScrubMode → Text → MarkedText
  | _, [] => []
  | .heredoc _, line => line.map (·, true)
  | .comment, '*' :: '/' :: rest => (' ', false) :: mark .code rest
  | .comment, _ :: rest => mark .comment rest
  | .literal _, ['\\'] => [('\\', true)]
  | .literal q, '\\' :: c :: rest => ('\\', true) :: (c, true) :: mark (.literal q) rest
  | .literal q, c :: rest =>
    if c = q then (c, false) :: mark .code rest else (c, true) :: mark (.literal q) rest
  | .code, '/' :: '/' :: _ => []
  | .code, '/' :: '*' :: rest => mark .comment rest
  | .code, '#' :: '[' :: rest => ('#', false) :: ('[', false) :: mark .code rest
  | .code, '#' :: _ => []
  | .code, '<' :: '<' :: '<' :: rest =>
    match heredocLabel? rest with
    | some _ => ('<' :: '<' :: '<' :: rest).map (·, true)
    | none => ('<', false) :: mark .code ('<' :: '<' :: rest)
  | .code, c :: rest => (c, false) :: mark (modeAfter c) rest

/-- One line, marked from the mode in which it starts. -/
def markFrom (mode : ScrubMode) (line : Text) : MarkedText :=
  match mode with
  | .heredoc label =>
    match closeHeredoc? label line with
    | none => line.map (·, true)
    | some rest => label.map (·, true) ++ mark .code rest
  | _ => mark mode line

variable {mode m : ScrubMode} {line text code : Text} {marks more : MarkedText} {c q : Char}

theorem mark_comment_char {rest : Text} (h : endsComment (c :: rest) = false) :
    mark .comment (c :: rest) = mark .comment rest := by
  rw [mark]
  rintro more rfl rfl
  cases h

theorem mark_hash {rest : Text} (h : ∀ more, rest ≠ '[' :: more) :
    mark .code ('#' :: rest) = [] := by
  rw [mark]
  exact h

theorem mark_char {rest : Text} (h : opensComment (c :: rest) = false) :
    mark .code (c :: rest) = (c, false) :: mark (modeAfter c) rest := by
  cases opensComment_eq_false_iff.mp h with
  | group => simp [mark, modeAfter]
  | unlabelled hlabel => simp [mark, modeAfter, hlabel]
  | other hslashes hblock hhash hheredoc =>
    rw [mark]
    · exact hslashes
    · exact hblock
    · exact fun _ hc _ => hhash hc
    · exact hhash
    · exact hheredoc

theorem mark_literal_char {q c : Char} (hc : c ≠ '\\') (line : Text) :
    mark (.literal q) (c :: line) =
      if c = q then (c, false) :: mark .code line else (c, true) :: mark (.literal q) line := by
  rw [mark]
  · exact fun h _ => hc h
  · exact fun _ _ h _ => hc h

theorem Scans.map_fst_mark {kept : Text} (h : Scans mode line kept code m) :
    (mark mode line).map Prod.fst = kept := by
  induction h with
  | nil => simp [mark]
  | @heredoc label line => cases line <;> simp [mark, Function.comp_def]
  | comment hends h ih => rw [mark_comment_char hends, ih]
  | endsComment h ih => simp [mark, ih]
  | backslash => simp [mark]
  | escaped h ih => simp [mark, ih]
  | quoted hc h ih => rw [mark_literal_char hc.2, if_neg hc.1, List.map_cons, ih]
  | closes hq h ih => rw [mark_literal_char hq, if_pos rfl, List.map_cons, ih]
  | slashes => simp [mark]
  | hash hattribute => rw [mark_hash hattribute, List.map_nil]
  | opensComment h ih => rw [mark, ih]
  | opensHeredoc hlabel => simp [mark, hlabel, Function.comp_def]
  | char hopens h ih => rw [mark_char hopens, List.map_cons, ih]

/-- The marked text is the text without comments. -/
theorem map_fst_mark (mode : ScrubMode) (line : Text) :
    (mark mode line).map Prod.fst = (scan true mode line).1 :=
  (scans mode line).map_fst_mark

/-- What is shown of a character inside a literal: nothing, or a blank where texts are joined. -/
def Veils (c : Char) (shown : Text) : Prop := shown = [] ∨ shown = [c] ∧ Text.isBlank c = true

/-- A marked text that starts in one mode and ends in another, and its code. -/
inductive HasCode : ScrubMode → MarkedText → Text → ScrubMode → Prop where
  | nil {mode : ScrubMode} : HasCode mode [] [] mode
  | char {m : ScrubMode} {c : Char} {marks : MarkedText} {code : Text}
      (hc : c ∉ ['\'', '"', '`']) (h : HasCode .code marks code m) :
      HasCode .code ((c, false) :: marks) (c :: code) m
  | opens {m : ScrubMode} {q : Char} {marks : MarkedText} {code : Text}
      (hq : q ∈ ['\'', '"', '`']) (h : HasCode (.literal q) marks code m) :
      HasCode .code ((q, false) :: marks) (q :: code) m
  | closes {m : ScrubMode} {q : Char} {marks : MarkedText} {code : Text}
      (hq : q ∈ ['\'', '"', '`']) (h : HasCode .code marks code m) :
      HasCode (.literal q) ((q, false) :: marks) (q :: code) m
  | inside {mode m : ScrubMode} {c : Char} {shown : Text} {marks : MarkedText} {code : Text}
      (hmode : mode ≠ .code) (hshown : Veils c shown) (h : HasCode mode marks code m) :
      HasCode mode ((c, true) :: marks) (shown ++ code) m
  | heredoc {m : ScrubMode} {label : Text} {marks : MarkedText} {code : Text}
      (h : HasCode (.heredoc label) marks code m) :
      HasCode .code (('<', true) :: marks) ('"' :: '"' :: code) m
  | label {m : ScrubMode} {label : Text} {c : Char} {marks : MarkedText} {code : Text}
      (hc : Text.isIdentPart c = true)
      (hend : ∀ d ∈ marks.head?, Text.isIdentPart d.1 = false) (h : HasCode .code marks code m) :
      HasCode (.heredoc label) ((c, true) :: marks) ('"' :: '"' :: code) m

namespace HasCode

/-- A text of which nothing is shown. -/
theorem hidden (hmode : mode ≠ .code) (s : Text) : HasCode mode (s.map (·, true)) [] mode := by
  induction s with
  | nil => exact .nil
  | cons c s ih => exact .inside hmode (.inl rfl) ih

end HasCode

theorem Scans.hasCode {kept : Text} (h : Scans mode line kept code m) (hmode : mode.Proper) :
    HasCode mode.uncommented (mark mode line) code m.uncommented := by
  have hquoted (q : Char) : (ScrubMode.literal q).uncommented ≠ .code := by
    simp [ScrubMode.uncommented]
  induction h with
  | nil =>
    rw [mark]
    exact .nil
  | @heredoc label line =>
    have hmark : mark (.heredoc label) line = line.map (·, true) := by cases line <;> simp [mark]
    rw [hmark]
    exact .hidden (by simp [ScrubMode.uncommented]) line
  | comment hends h ih =>
    rw [mark_comment_char hends]
    exact ih hmode
  | endsComment h ih =>
    rw [mark]
    exact .char (by decide) (ih trivial)
  | @backslash q =>
    rw [mark]
    exact .inside (hquoted q) (.inl rfl) .nil
  | @escaped q c rest kept code m h ih =>
    rw [mark]
    exact .inside (hquoted q) (.inl rfl) (.inside (hquoted q) (.inl rfl) (ih hmode))
  | @quoted q c rest kept code m hc h ih =>
    rw [mark_literal_char hc.2, if_neg hc.1]
    exact .inside (hquoted q) (.inl rfl) (ih hmode)
  | closes hq h ih =>
    rw [mark_literal_char hq, if_pos rfl]
    exact .closes hmode (ih trivial)
  | slashes =>
    rw [mark]
    exact .nil
  | hash hattribute =>
    rw [mark_hash hattribute]
    exact .nil
  | opensComment h ih =>
    rw [mark]
    exact ih trivial
  | @opensHeredoc rest label hlabel =>
    rw [mark, hlabel]
    have hmode : ScrubMode.heredoc label ≠ .code := by simp
    exact .heredoc (.hidden hmode ('<' :: '<' :: rest))
  | @char c rest kept code m hopens h ih =>
    rw [mark_char hopens]
    have hnext := ih (proper_modeAfter c)
    unfold modeAfter at hnext ⊢
    split at hnext
    · rename_i hquote
      rw [if_pos hquote]
      exact .opens (by simpa using hquote) hnext
    · rename_i hplain
      rw [if_neg hplain]
      exact .char (by simpa using hplain) hnext

/-- The rest of a line, marked, has the code that the scrubber returns. -/
theorem hasCode_mark (hmode : mode.Proper) (line : Text) :
    HasCode mode.uncommented (mark mode line) (scan false mode line).1
      (scan false mode line).2.uncommented :=
  (scans mode line).hasCode hmode

/-- A comment leaves a blank behind, so that a text begins as it does with its comments, or
with a blank. -/
theorem head?_mark (line : Text) :
    ∀ d ∈ (mark .code line).head?, line.head? = some d.1 ∨ d.1 = ' ' := by
  have hcomment (s : Text) : ∀ d ∈ (mark .comment s).head?, d.1 = ' ' := by
    intro d hd
    induction s with
    | nil => simp [mark] at hd
    | cons c s ih =>
      by_cases hclose : ∃ rest, c = '*' ∧ s = '/' :: rest
      · obtain ⟨rest, rfl, rfl⟩ := hclose
        rw [mark] at hd
        exact (congrArg Prod.fst (Option.some.inj hd)).symm
      · rw [mark] at hd
        · exact ih hd
        · exact fun rest hc hs => hclose ⟨rest, hc, hs⟩
  generalize hcode : ScrubMode.code = mode
  fun_cases mark mode line with
  | case1 | case9 | case12 => simp
  | case2 | case3 | case4 | case5 | case6 | case7 | case8 => cases hcode
  | case10 rest => exact fun d hd => .inr (hcomment rest d hd)
  | case11 | case13 | case14 | case15 =>
    rintro d ⟨⟩
    exact .inl rfl

theorem map_fst_markFrom (mode : ScrubMode) (line : Text) :
    (markFrom mode line).map Prod.fst = (scrubFrom true mode line).1 := by
  cases mode with
  | heredoc label =>
    rw [markFrom, scrubFrom]
    cases closeHeredoc? label line with
    | none => simp [Function.comp_def]
    | some rest => simp [Function.comp_def, map_fst_mark]
  | code | comment | literal => exact map_fst_mark _ line

/-- The label that closes a heredoc shows the closing pair of quotes. -/
theorem HasCode.closing {opening word : Text} (hne : word ≠ [])
    (hword : ∀ c ∈ word, Text.isIdentPart c = true)
    (hend : ∀ d ∈ marks.head?, Text.isIdentPart d.1 = false) (h : HasCode .code marks code m) :
    HasCode (.heredoc opening) (word.map (·, true) ++ marks) ('"' :: '"' :: code) m := by
  induction word with
  | nil => exact absurd rfl hne
  | cons c word ih =>
    rw [List.forall_mem_cons] at hword
    cases word with
    | nil => exact .label hword.1 hend h
    | cons d word => exact .inside (by simp) (.inl rfl) (ih (by simp) hword.2)

/-- A line, marked, has the code that the scrubber returns. -/
theorem hasCode_markFrom (hmode : mode.Proper) (line : Text) :
    HasCode mode.uncommented (markFrom mode line) (scrubFrom false mode line).1
      (scrubFrom false mode line).2.uncommented := by
  cases mode with
  | code | comment | literal => exact hasCode_mark hmode line
  | heredoc label =>
    rw [markFrom, scrubFrom]
    cases hclose : closeHeredoc? label line with
    | none => exact .hidden (by simp [ScrubMode.uncommented]) line
    | some rest =>
      obtain ⟨-, hrest⟩ := closeHeredoc?_eq_some_iff.mp hclose
      have hcode : ScrubMode.Proper .code := trivial
      refine .closing hmode.1 hmode.2 (fun d hd => ?_) (hasCode_mark hcode rest)
      rcases head?_mark rest d hd with hhead | hblank
      · exact hrest d.1 hhead
      · rw [hblank]
        decide

/-- The lines of a file, marked, from the mode in which the first one starts. -/
def markedLinesFrom (mode : ScrubMode) : List Text → List MarkedText
  | [] => []
  | line :: rest => markFrom mode line :: markedLinesFrom (scrubFrom false mode line).2 rest

def markedLines (lines : List Text) : List MarkedText := markedLinesFrom .code lines

theorem markedLinesFrom_getElem? {s : Scrubber} (hkeep : s.keepLiterals = false)
    (lines : List Text) (n : Nat) :
    (markedLinesFrom s.mode lines)[n]? =
      lines[n]?.map fun line => markFrom (s.after (lines.take n)).mode line := by
  induction lines generalizing s n with
  | nil => simp [markedLinesFrom]
  | cons line lines ih =>
    cases n with
    | zero => rfl
    | succ n =>
      have hnext : (scrubFrom false s.mode line).2 = (s.scrub line).2.mode := by
        rw [scrub, hkeep]
      simpa [markedLinesFrom, hnext] using ih (s := (s.scrub line).2) hkeep n

theorem markedLines_getElem? (lines : List Text) (n : Nat) :
    (markedLines lines)[n]? =
      lines[n]?.map fun line => markFrom (({} : Scrubber).after (lines.take n)).mode line :=
  markedLinesFrom_getElem? (s := {}) rfl lines n

/-- Every line of a file, marked: its text is the line without comments, and its code is what
is left without the contents of literals. -/
theorem exists_hasCode {lines : List Text} {n : Nat} (h : (markedLines lines)[n]? = some marks) :
    ∃ mode m code, (codeLines lines)[n]? = some code ∧
      (commentFreeLines lines)[n]? = some (marks.map Prod.fst) ∧ HasCode mode marks code m := by
  rw [markedLines_getElem?, Option.map_eq_some_iff] at h
  obtain ⟨line, hline, rfl⟩ := h
  have hproper := proper_after (s := {}) trivial (lines.take n)
  have hkeeping : ({ keepLiterals := true } : Scrubber).after (lines.take n) =
      (({} : Scrubber).after (lines.take n)).keeping := after_keeping (s := {}) rfl _
  have hcode : (codeLines lines)[n]? = _ := codes_getElem? {} lines n
  have hfree : (commentFreeLines lines)[n]? = _ := codes_getElem? { keepLiterals := true } lines n
  rw [hline, Option.map_some, scrub, after_keepLiterals] at hcode
  rw [hline, Option.map_some, hkeeping, scrub] at hfree
  exact ⟨_, _, _, hcode, hfree.trans (congrArg some (map_fst_markFrom _ line).symm),
    hasCode_markFrom hproper line⟩

namespace HasCode

variable {front back : MarkedText}

/-- Where a marked text is cut, so is its code. -/
theorem split (h : HasCode mode (front ++ back) code m) :
    ∃ between first second, code = first ++ second ∧ HasCode mode front first between ∧
      HasCode between back second m := by
  induction front generalizing mode code with
  | nil => exact ⟨mode, [], code, rfl, .nil, h⟩
  | cons d front ih =>
    cases h with
    | char hc h =>
      obtain ⟨between, first, second, rfl, hfirst, hsecond⟩ := ih h
      exact ⟨between, _, second, rfl, .char hc hfirst, hsecond⟩
    | opens hq h =>
      obtain ⟨between, first, second, rfl, hfirst, hsecond⟩ := ih h
      exact ⟨between, _, second, rfl, .opens hq hfirst, hsecond⟩
    | closes hq h =>
      obtain ⟨between, first, second, rfl, hfirst, hsecond⟩ := ih h
      exact ⟨between, _, second, rfl, .closes hq hfirst, hsecond⟩
    | inside hmode hshown h =>
      obtain ⟨between, first, second, rfl, hfirst, hsecond⟩ := ih h
      exact ⟨between, _, second, (List.append_assoc ..).symm, .inside hmode hshown hfirst, hsecond⟩
    | heredoc h =>
      obtain ⟨between, first, second, rfl, hfirst, hsecond⟩ := ih h
      exact ⟨between, _, second, rfl, .heredoc hfirst, hsecond⟩
    | label hc hend h =>
      obtain ⟨between, first, second, rfl, hfirst, hsecond⟩ := ih h
      refine ⟨between, _, second, rfl, .label hc (fun d hd => hend d ?_) hfirst, hsecond⟩
      change d ∈ (front ++ back).head?
      rw [List.head?_append, Option.mem_def.mp hd]
      rfl

/-- A character of code, but for the quotes, is shown as it stands. -/
theorem of_char (hc : c ∉ ['\'', '"', '`']) (h : HasCode mode ((c, false) :: marks) code m) :
    mode = .code ∧ ∃ rest, code = c :: rest ∧ HasCode .code marks rest m := by
  cases h with
  | char _ h => exact ⟨rfl, _, rfl, h⟩
  | opens hq _ => exact absurd hq hc
  | closes hq _ => exact absurd hq hc

/-- From code on, a text without quotes and heredocs is shown as it stands. -/
theorem of_run {w t : Text} (hw : ∀ c ∈ w, c ∉ ['<', '\'', '"', '`'])
    (h : HasCode .code marks code m) (htext : marks.map Prod.fst = w ++ t) :
    ∃ rest shown, marks = w.map (·, false) ++ rest ∧ code = w ++ shown ∧
      rest.map Prod.fst = t ∧ HasCode .code rest shown m := by
  induction w generalizing marks code with
  | nil => exact ⟨marks, code, rfl, rfl, htext, h⟩
  | cons c w ih =>
    rw [List.forall_mem_cons] at hw
    obtain ⟨d, marks, rfl⟩ : ∃ d rest, marks = d :: rest := by
      cases marks with
      | nil => cases htext
      | cons d rest => exact ⟨d, rest, rfl⟩
    obtain ⟨hd, hmore⟩ := List.cons.inj htext
    cases h with
    | char hc h =>
      obtain rfl : _ = c := hd
      obtain ⟨rest, shown, rfl, rfl, hrest, hcode⟩ := ih hw.2 h hmore
      exact ⟨rest, shown, rfl, rfl, hrest, hcode⟩
    | opens hq h =>
      obtain rfl : _ = c := hd
      exact absurd (List.mem_cons_of_mem _ hq) hw.1
    | inside hmode _ _ => exact absurd rfl hmode
    | heredoc h =>
      obtain rfl : '<' = c := hd
      exact absurd List.mem_cons_self hw.1

/-- From code on, what is shown without quotes stands so in the text. -/
theorem of_shown {w t : Text} (hw : ∀ c ∈ w, c ∉ ['\'', '"', '`'])
    (h : HasCode .code marks code m) (hcode : code = w ++ t) :
    ∃ rest, marks = w.map (·, false) ++ rest ∧ HasCode .code rest t m := by
  induction w generalizing marks code with
  | nil =>
    obtain rfl : code = t := hcode
    exact ⟨marks, rfl, h⟩
  | cons c w ih =>
    rw [List.forall_mem_cons] at hw
    cases h with
    | nil => cases hcode
    | char _ h =>
      obtain ⟨rfl, hmore⟩ := List.cons.inj hcode
      obtain ⟨rest, rfl, hrest⟩ := ih hw.2 h hmore
      exact ⟨rest, rfl, hrest⟩
    | opens hq _ =>
      obtain ⟨rfl, -⟩ := List.cons.inj hcode
      exact absurd hq hw.1
    | inside hmode _ _ => exact absurd rfl hmode
    | heredoc _ =>
      obtain ⟨rfl, -⟩ := List.cons.inj hcode
      exact absurd (by decide) hw.1

/-- A character is shown behind what it is no part of. -/
theorem exists_front {shown u v : Text} (hc : c ∉ shown) (h : shown ++ code = u ++ c :: v) :
    ∃ u', code = u' ++ c :: v := by
  rcases List.append_eq_append_iff.mp h with ⟨u', -, hcode⟩ | ⟨rest, rfl, hrest⟩
  · exact ⟨u', hcode⟩
  · cases rest with
    | nil => exact ⟨[], hrest.symm⟩
    | cons d rest =>
      obtain ⟨rfl, -⟩ := List.cons.inj hrest
      exact absurd (by simp) hc

/-- What is shown is a character of code, unless it is a quote or a blank. -/
theorem exists_of_shown {u v : Text} (hc : c ∉ ['\'', '"', '`']) (hblank : Text.isBlank c = false)
    (h : HasCode mode marks code m) (hcode : code = u ++ c :: v) :
    ∃ front back, marks = front ++ (c, false) :: back ∧
      HasCode .code ((c, false) :: back) (c :: v) m := by
  have hquote {q : Char} (hq : q ∈ ['\'', '"', '`']) : c ∉ [q] := by
    rintro hmem
    exact hc (List.mem_singleton.mp hmem ▸ hq)
  have hpair : c ∉ ['"', '"'] := fun hmem => hc (by simp_all)
  induction h generalizing u with
  | nil => simp at hcode
  | @char m d marks code hd h ih =>
    cases u with
    | nil =>
      obtain ⟨rfl, rfl⟩ := List.cons.inj hcode
      exact ⟨[], marks, rfl, .char hd h⟩
    | cons e u =>
      obtain ⟨front, back, rfl, hback⟩ := ih (List.cons.inj hcode).2
      exact ⟨(d, false) :: front, back, rfl, hback⟩
  | @opens m q marks code hq h ih | @closes m q marks code hq h ih =>
    obtain ⟨u', hrest⟩ := exists_front (hquote hq) hcode
    obtain ⟨front, back, rfl, hback⟩ := ih hrest
    exact ⟨(q, false) :: front, back, rfl, hback⟩
  | @inside mode m d shown marks code hmode hshown h ih =>
    have hnot : c ∉ shown := by
      rcases hshown with rfl | ⟨rfl, hd⟩
      · simp
      · intro hmem
        rw [List.mem_singleton.mp hmem, hd] at hblank
        cases hblank
    obtain ⟨u', hrest⟩ := exists_front hnot hcode
    obtain ⟨front, back, rfl, hback⟩ := ih hrest
    exact ⟨(d, true) :: front, back, rfl, hback⟩
  | heredoc h ih =>
    obtain ⟨u', hrest⟩ := exists_front hpair hcode
    obtain ⟨front, back, rfl, hback⟩ := ih hrest
    exact ⟨('<', true) :: front, back, rfl, hback⟩
  | @label m label d marks code hd hend h ih =>
    obtain ⟨u', hrest⟩ := exists_front hpair hcode
    obtain ⟨front, back, rfl, hback⟩ := ih hrest
    exact ⟨(d, true) :: front, back, rfl, hback⟩

/-- A name that begins inside a literal stands inside of it. -/
theorem of_hidden {w t : Text} {back : MarkedText}
    (hw : ∀ d ∈ c :: w, Text.isIdentPart d = true)
    (h : HasCode mode ((c, true) :: back) code m) (htext : back.map Prod.fst = w ++ t) :
    ∃ rest, (c, true) :: back = (c :: w).map (·, true) ++ rest := by
  induction w generalizing mode c back code with
  | nil => exact ⟨back, rfl⟩
  | cons d w ih =>
    rw [List.forall_mem_cons] at hw
    obtain ⟨⟨d, hidden⟩, more, rfl, rfl, hmore⟩ := List.map_eq_cons_iff.mp htext
    have hd : Text.isIdentPart d = true := hw.2 d List.mem_cons_self
    have hnext : ∃ rest, (d, hidden) :: more = (d :: w).map (·, true) ++ rest := by
      cases h with
      | inside hmode _ h =>
        cases hidden with
        | true => exact ih hw.2 h hmore
        | false =>
          obtain ⟨rfl, -⟩ := h.of_char (Text.not_mem_of_class hd (by decide))
          exact absurd rfl hmode
      | heredoc _ => cases hw.1
      | label _ hend _ =>
        have hnot : Text.isIdentPart d = false := hend _ rfl
        rw [hd] at hnot
        cases hnot
    obtain ⟨rest, hrest⟩ := hnext
    exact ⟨rest, by rw [hrest]; rfl⟩

end HasCode

/-- The code of a line that begins in code and has no comments. -/
theorem codeLines_of_uncommented {lines : List Text} {n : Nat} {code : Text}
    (hline : lines[n]? = some line)
    (hstart : (({} : Scrubber).after (lines.take n)).mode = .code)
    (h : Uncommented .code line code) : (codeLines lines)[n]? = some code := by
  have hkeep := after_keepLiterals {} (lines.take n)
  have hfresh : ({} : Scrubber).after (lines.take n) = {} :=
    eq_fresh hkeep (by simp [inComment, inLiteral, hstart])
  have hat : (codeLines lines)[n]? = _ := codes_getElem? {} lines n
  rw [hat, hline, Option.map_some, hfresh, h.scrub_eq false]
  rfl

section Bare

variable {next : ScrubMode} {rest out w : Text}

/-- A text without the signs that a scrubber puts in the place of what it drops. -/
def Bare (w : Text) : Prop := ∀ c ∈ w, c ∉ ['\'', '"', '`', ' ']

theorem Bare.eq_nil (hw : Bare w) (hc : c ∈ ['\'', '"', '`', ' ']) (h : w <+: c :: out) :
    w = [] := by
  rcases List.prefix_cons_iff.mp h with rfl | ⟨t, rfl, -⟩
  · rfl
  · exact absurd hc (hw c List.mem_cons_self)

/-- What is returned of a line has no bare text that the line has not; if it begins with one,
the line starts in code and begins with it, too. -/
structure Keeps (mode : ScrubMode) (line out : Text) : Prop where
  front : ∀ w, Bare w → w <+: out → w = [] ∨ mode = .code ∧ w <+: line
  part : ∀ w, Bare w → w <:+: out → w <:+: line

namespace Keeps

theorem nil (mode : ScrubMode) (line : Text) : Keeps mode line [] where
  front _ _ h := .inl (List.prefix_nil.mp h)
  part w _ h := by
    rw [List.infix_nil.mp h]
    exact List.nil_infix

theorem char (h : Keeps .code rest out) : Keeps .code (c :: rest) (c :: out) := by
  have hfront (w : Text) (hw : Bare w) (hout : w <+: c :: out) : w <+: c :: rest := by
    rcases List.prefix_cons_iff.mp hout with rfl | ⟨t, rfl, ht⟩
    · exact List.nil_prefix
    · rcases h.front t (fun d hd => hw d (List.mem_cons_of_mem c hd)) ht with rfl | ⟨-, hrest⟩
      · exact ⟨rest, rfl⟩
      · exact (List.prefix_cons_inj c).mpr hrest
  refine ⟨fun w hw hout => .inr ⟨rfl, hfront w hw hout⟩, fun w hw hout => ?_⟩
  rcases List.infix_cons_iff.mp hout with hprefix | hinfix
  · exact (hfront w hw hprefix).isInfix
  · exact (h.part w hw hinfix).trans (List.suffix_cons c rest).isInfix

/-- A sign stands in the place of something, or is a quote of the line. -/
theorem sign (hc : c ∈ ['\'', '"', '`', ' ']) (h : Keeps next rest out) (hrest : rest <:+ line) :
    Keeps mode line (c :: out) where
  front w hw hout := .inl (hw.eq_nil hc hout)
  part w hw hout := by
    rcases List.infix_cons_iff.mp hout with hprefix | hinfix
    · rw [hw.eq_nil hc hprefix]
      exact List.nil_infix
    · exact (h.part w hw hinfix).trans hrest.isInfix

/-- Outside of code nothing is begun. -/
theorem skip (hnext : next ≠ .code) (h : Keeps next rest out) (hrest : rest <:+ line) :
    Keeps mode line out where
  front w hw hout := (h.front w hw hout).imp_right fun hcode => absurd hcode.1 hnext
  part w hw hout := (h.part w hw hout).trans hrest.isInfix

end Keeps

theorem Scans.keeps {kept : Text} (h : Scans mode line kept code m) (hmode : mode.Proper) :
    Keeps mode line code := by
  induction h with
  | nil | heredoc | backslash | slashes | hash => exact .nil _ _
  | @comment c rest kept code m hends h ih =>
    exact .skip (by simp) (ih hmode) (List.suffix_cons c rest)
  | @endsComment rest kept code m h ih =>
    exact .sign (by decide) (ih trivial) (List.suffix_append ['*', '/'] rest)
  | @escaped q c rest kept code m h ih =>
    exact .skip (by simp) (ih hmode) (List.suffix_append ['\\', c] rest)
  | @quoted q c rest kept code m hc h ih =>
    exact .skip (by simp) (ih hmode) (List.suffix_cons c rest)
  | @closes q rest kept code m hq h ih =>
    exact .sign (List.mem_append_left [' '] hmode) (ih trivial) (List.suffix_cons q rest)
  | @opensComment rest kept code m h ih =>
    exact .skip (by simp) (ih trivial) (List.suffix_append ['/', '*'] rest)
  | @opensHeredoc rest label hlabel =>
    have hquote : Keeps .code ('<' :: '<' :: '<' :: rest) ['"'] :=
      .sign (by decide) (.nil .code []) List.nil_suffix
    exact .sign (by decide) hquote List.suffix_rfl
  | @char c rest kept code m hopens h ih =>
    have hnext := ih (proper_modeAfter c)
    unfold modeAfter at hnext
    split at hnext
    · rename_i hquote
      have hq : c ∈ ['\'', '"', '`'] := by simpa using hquote
      exact .sign (List.mem_append_left [' '] hq) hnext (List.suffix_cons c rest)
    · exact .char hnext

theorem keeps_scan (hmode : mode.Proper) (line : Text) :
    Keeps mode line (scan false mode line).1 :=
  (scans mode line).keeps hmode

/-- A bare text in what the scrubber returns of a line stands in the line. -/
theorem infix_of_scrub {s : Scrubber} (hkeep : s.keepLiterals = false) (hmode : s.mode.Proper)
    (hw : Bare w) (h : w <:+: (s.scrub line).1) : w <:+: line := by
  obtain ⟨keep, mode⟩ := s
  obtain rfl : keep = false := hkeep
  rw [scrub] at h
  cases mode with
  | code | comment | literal => exact (keeps_scan hmode line).part w hw h
  | heredoc label =>
    rw [scrubFrom] at h
    cases hclose : closeHeredoc? label line with
    | none =>
      simp only [hclose] at h
      exact (Keeps.nil .code line).part w hw h
    | some rest =>
      simp only [hclose] at h
      obtain ⟨hline, -⟩ := closeHeredoc?_eq_some_iff.mp hclose
      obtain ⟨blanks, hsplit, -⟩ := Text.exists_blanks line
      have hrest : rest <:+ line := by
        rw [hsplit, hline, ← List.append_assoc]
        exact List.suffix_append _ rest
      have hcode : ScrubMode.Proper .code := trivial
      have hquote : Keeps .code rest ('"' :: (scan false .code rest).1) :=
        .sign (by decide) (keeps_scan hcode rest) List.suffix_rfl
      have hkeeps : Keeps .code line ('"' :: '"' :: (scan false .code rest).1) :=
        .sign (by decide) hquote hrest
      exact hkeeps.part w hw h

/-- What code shows, the line of the file has. -/
theorem exists_infix_of_codeLines {lines : List Text} {n : Nat} {code : Text}
    (hcode : (codeLines lines)[n]? = some code) (hw : Bare w) (h : w <:+: code) :
    ∃ line, lines[n]? = some line ∧ w <:+: line := by
  have hat : (codeLines lines)[n]? = _ := codes_getElem? {} lines n
  rw [hcode, eq_comm, Option.map_eq_some_iff] at hat
  obtain ⟨line, hline, rfl⟩ := hat
  have hproper := proper_after (s := {}) trivial (lines.take n)
  exact ⟨line, hline, infix_of_scrub (after_keepLiterals {} _) hproper hw h⟩

end Bare

end Scrubber

end PhpLint
