import PhpLint.Proofs.Code.Marks
import PhpLint.Proofs.Code.Words
import PhpLint.Proofs.LogicalLine.Split

/-!
The marked text of a logical line. A logical line that begins in code has a text and a code
that are read off one marked text, even if it is joined from several physical lines that go on
inside a literal; and a word that stands inside a literal of the logical line stands inside a
literal of one of its physical lines.
-/

namespace PhpLint

/-- A word stands inside a literal. -/
def Scrubber.Hides (marks : MarkedText) (word : Text) : Prop := word.map (·, true) <:+: marks

namespace Scrubber.HasCode

variable {mode m between : ScrubMode} {marks more piece : MarkedText} {code shown : Text} {q : Char}

theorem isBlank_of_quote (hq : q ∈ ['\'', '"', '`']) : Text.isBlank q = false := by
  simp only [List.mem_cons, List.not_mem_nil, or_false] at hq
  rcases hq with rfl | rfl | rfl <;> rfl

/-- A text of which nothing is left has no code and stays in its mode. -/
theorem of_nil (h : HasCode mode [] code m) : code = [] ∧ m = mode := by
  cases h
  exact ⟨rfl, rfl⟩

/-- A text that starts in code shows something of itself. -/
theorem nil_iff (h : HasCode .code marks code m) : code = [] ↔ marks = [] := by
  cases h with
  | inside hmode _ _ => exact absurd rfl hmode
  | nil | char | opens | heredoc => simp

/-- Outside of code, the blanks in front of what is shown stand inside a literal, and may as
well not be shown. -/
theorem trimStart_code (hmode : mode ≠ .code) (h : HasCode mode marks code m) :
    HasCode mode marks (Text.trimStart code) m := by
  induction h with
  | nil => exact .nil
  | char | opens | heredoc => exact absurd rfl hmode
  | closes hq h =>
    rw [Text.trimStart_cons_of_not_blank (isBlank_of_quote hq)]
    exact .closes hq h
  | inside _ hshown h ih =>
    rcases hshown with rfl | ⟨rfl, hc⟩
    · exact .inside hmode (.inl rfl) (ih hmode)
    · rw [List.singleton_append, Text.trimStart_cons_of_blank hc]
      exact .inside hmode (.inl rfl) (ih hmode)
  | label hc hend h =>
    rw [Text.trimStart_cons_of_not_blank (by decide)]
    exact .label hc hend h

/-- Text and code can be trimmed together, at the start -/
theorem trimStart (h : HasCode mode marks code m) :
    ∃ kept, kept <:+ marks ∧ kept.map Prod.fst = Text.trimStart (marks.map Prod.fst) ∧
      HasCode mode kept (Text.trimStart code) m := by
  have hstays {mode m : ScrubMode} {d : Char × Bool} {marks : MarkedText} {c : Char} {code : Text}
      (hd : Text.isBlank d.1 = false) (hc : Text.isBlank c = false)
      (h : HasCode mode (d :: marks) (c :: code) m) :
      ∃ kept, kept <:+ d :: marks ∧
        kept.map Prod.fst = Text.trimStart ((d :: marks).map Prod.fst) ∧
        HasCode mode kept (Text.trimStart (c :: code)) m := by
    rw [List.map_cons, Text.trimStart_cons_of_not_blank hd, Text.trimStart_cons_of_not_blank hc]
    exact ⟨_, List.suffix_rfl, rfl, h⟩
  induction h with
  | nil => exact ⟨[], List.suffix_rfl, rfl, .nil⟩
  | @char m c marks code hc h ih =>
    cases hblank : Text.isBlank c with
    | false => exact hstays hblank hblank (.char hc h)
    | true =>
      obtain ⟨kept, hkept, htext, hcode⟩ := ih
      rw [List.map_cons, Text.trimStart_cons_of_blank hblank, Text.trimStart_cons_of_blank hblank]
      exact ⟨kept, hkept.trans (List.suffix_cons _ _), htext, hcode⟩
  | opens hq h => exact hstays (isBlank_of_quote hq) (isBlank_of_quote hq) (.opens hq h)
  | closes hq h => exact hstays (isBlank_of_quote hq) (isBlank_of_quote hq) (.closes hq h)
  | @inside mode m c shown marks code hmode hshown h ih =>
    have hcode : Text.trimStart (shown ++ code) = Text.trimStart code := by
      refine Text.trimStart_append_of_blank ?_ code
      rcases hshown with rfl | ⟨rfl, hc⟩
      · simp
      · simpa using hc
    rw [hcode, List.map_cons]
    cases hblank : Text.isBlank c with
    | false =>
      rw [Text.trimStart_cons_of_not_blank hblank]
      exact ⟨_, List.suffix_rfl, rfl, .inside hmode (.inl rfl) (h.trimStart_code hmode)⟩
    | true =>
      obtain ⟨kept, hkept, htext, hcode⟩ := ih
      rw [Text.trimStart_cons_of_blank hblank]
      exact ⟨kept, hkept.trans (List.suffix_cons _ _), htext, hcode⟩
  | heredoc h => exact hstays (by decide) (by decide) (.heredoc h)
  | label hc hend h =>
    exact hstays (Text.isBlank_of_isIdentPart hc) (by decide) (.label hc hend h)

/-- Of a blank that is shown nothing is left if nothing is shown behind it. -/
theorem trimEnd_shown {c : Char} (h : Veils c shown) (code : Text) :
    ∃ left, Veils c left ∧ Text.trimEnd (shown ++ code) = left ++ Text.trimEnd code ∧
      (Text.trimEnd code = [] → left = []) := by
  rcases h with rfl | ⟨rfl, hc⟩
  · exact ⟨[], .inl rfl, rfl, fun _ => rfl⟩
  · rw [List.singleton_append, Text.trimEnd_cons_of_blank hc]
    split
    · rename_i hnil
      exact ⟨[], .inl rfl, hnil.symm, fun _ => rfl⟩
    · rename_i hne
      exact ⟨[c], .inr ⟨rfl, hc⟩, rfl, fun hnil => absurd hnil hne⟩

/-- What is left of a marked text without the blanks at its end. -/
structure TrimmedEnd (kept marks : MarkedText) : Prop where
  front : kept <+: marks
  text : kept.map Prod.fst = Text.trimEnd (marks.map Prod.fst)

section TrimmedEnd

variable {kept : MarkedText} {d : Char × Bool}

theorem TrimmedEnd.cons (h : TrimmedEnd kept marks)
    (hd : Text.isBlank d.1 = false ∨ kept ≠ []) : TrimmedEnd (d :: kept) (d :: marks) := by
  refine ⟨List.cons_prefix_cons.mpr ⟨rfl, h.front⟩, ?_⟩
  rw [List.map_cons, List.map_cons]
  cases hblank : Text.isBlank d.1 with
  | false => rw [Text.trimEnd_cons hblank, ← h.text]
  | true =>
    have hne : kept ≠ [] := hd.resolve_left (by simp [hblank])
    rw [Text.trimEnd_cons_of_blank hblank, ← h.text, if_neg (by simpa using hne)]

theorem TrimmedEnd.blank (h : TrimmedEnd [] marks) (hd : Text.isBlank d.1 = true) :
    TrimmedEnd [] (d :: marks) := by
  refine ⟨List.nil_prefix, ?_⟩
  rw [List.map_cons, Text.trimEnd_cons_of_blank hd, ← h.text]
  rfl

end TrimmedEnd

/-- and at the end. -/
theorem trimEnd (h : HasCode mode marks code m) :
    ∃ kept, TrimmedEnd kept marks ∧ HasCode mode kept (Text.trimEnd code) m := by
  induction h with
  | nil => exact ⟨[], ⟨List.prefix_rfl, rfl⟩, .nil⟩
  | @char m c marks code hc h ih =>
    obtain ⟨kept, hkept, hcode⟩ := ih
    cases hblank : Text.isBlank c with
    | false =>
      rw [Text.trimEnd_cons hblank]
      exact ⟨_, hkept.cons (.inl hblank), .char hc hcode⟩
    | true =>
      rw [Text.trimEnd_cons_of_blank hblank]
      by_cases hnil : kept = []
      · obtain rfl := hnil
        obtain ⟨hempty, rfl⟩ := hcode.of_nil
        rw [if_pos hempty]
        exact ⟨[], hkept.blank hblank, .nil⟩
      · rw [if_neg (mt hcode.nil_iff.mp hnil)]
        exact ⟨_, hkept.cons (.inr hnil), .char hc hcode⟩
  | opens hq h ih =>
    obtain ⟨kept, hkept, hcode⟩ := ih
    rw [Text.trimEnd_cons (isBlank_of_quote hq)]
    exact ⟨_, hkept.cons (.inl (isBlank_of_quote hq)), .opens hq hcode⟩
  | closes hq h ih =>
    obtain ⟨kept, hkept, hcode⟩ := ih
    rw [Text.trimEnd_cons (isBlank_of_quote hq)]
    exact ⟨_, hkept.cons (.inl (isBlank_of_quote hq)), .closes hq hcode⟩
  | @inside mode m c shown marks code hmode hshown h ih =>
    obtain ⟨kept, hkept, hcode⟩ := ih
    obtain ⟨left, hveils, hend, hleft⟩ := trimEnd_shown hshown code
    rw [hend]
    cases hblank : Text.isBlank c with
    | false => exact ⟨_, hkept.cons (.inl hblank), .inside hmode hveils hcode⟩
    | true =>
      by_cases hnil : kept = []
      · obtain rfl := hnil
        obtain ⟨hempty, rfl⟩ := hcode.of_nil
        rw [hleft hempty, hempty]
        exact ⟨[], hkept.blank hblank, .nil⟩
      · exact ⟨_, hkept.cons (.inr hnil), .inside hmode hveils hcode⟩
  | heredoc h ih =>
    obtain ⟨kept, hkept, hcode⟩ := ih
    rw [Text.trimEnd_cons (by decide), Text.trimEnd_cons (by decide)]
    exact ⟨_, hkept.cons (.inl (by decide)), .heredoc hcode⟩
  | label hc hend h ih =>
    obtain ⟨kept, hkept, hcode⟩ := ih
    rw [Text.trimEnd_cons (by decide), Text.trimEnd_cons (by decide)]
    refine ⟨_, hkept.cons (.inl (Text.isBlank_of_isIdentPart hc)), .label hc (fun d hd => ?_) hcode⟩
    -- The first character that is left is the first one there was.
    obtain ⟨rest, rfl⟩ := hkept.front
    refine hend d ?_
    rw [List.head?_append, Option.mem_def.mp hd]
    rfl

theorem trim (h : HasCode mode marks code m) :
    ∃ kept, kept <:+: marks ∧ kept.map Prod.fst = Text.trim (marks.map Prod.fst) ∧
      HasCode mode kept (Text.trim code) m := by
  obtain ⟨started, hsuffix, hstart, h⟩ := h.trimStart
  obtain ⟨kept, ⟨hfront, hend⟩, h⟩ := h.trimEnd
  exact ⟨kept, hfront.isInfix.trans hsuffix.isInfix, by rw [hend, hstart, Text.trim], h⟩

/-- A text can go on behind a label, but not with the label. -/
theorem append (h : HasCode mode marks code between)
    (hmore : ∀ d ∈ more.head?, Text.isIdentPart d.1 = false)
    (hshown : HasCode between more shown m) :
    HasCode mode (marks ++ more) (code ++ shown) m := by
  induction h with
  | nil => exact hshown
  | char hc _ ih => exact .char hc (ih hshown)
  | opens hq _ ih => exact .opens hq (ih hshown)
  | closes hq _ ih => exact .closes hq (ih hshown)
  | inside hmode hveils _ ih =>
    rw [List.append_assoc]
    exact .inside hmode hveils (ih hshown)
  | heredoc _ ih => exact .heredoc (ih hshown)
  | @label _ label c marks code hc hend _ ih =>
    refine .label hc (fun d hd => ?_) (ih hshown)
    cases marks with
    | nil => exact hmore d hd
    | cons e marks => exact hend d hd

end Scrubber.HasCode

namespace Scrubber

theorem Hides.mono {kept marks : MarkedText} {word : Text} (h : Hides kept word)
    (hpart : kept <:+: marks) : Hides marks word := h.trans hpart

/-- A word without blanks stands on one side of a blank. -/
theorem Hides.of_join {marks more : MarkedText} {word : Text} {b : Bool}
    (hword : ∀ c ∈ word, Text.isBlank c = false) (h : Hides (marks ++ (' ', b) :: more) word) :
    Hides marks word ∨ Hides more word := by
  obtain ⟨front, back, h⟩ := h
  have hnot : (' ', b) ∉ word.map (·, true) := by
    intro hmem
    obtain ⟨c, hc, heq⟩ := List.mem_map.mp hmem
    obtain ⟨rfl, -⟩ := Prod.mk.inj heq
    cases hword ' ' hc
  rcases List.append_eq_append_iff.mp h with ⟨rest, hmarks, -⟩ | ⟨rest, hfront, hrest⟩
  · exact .inl ⟨front, rest, hmarks.symm⟩
  · cases rest with
    | nil => exact .inl ⟨front, [], by simpa using hfront⟩
    | cons d rest =>
      obtain ⟨rfl, rfl⟩ := List.cons.inj hrest
      -- The blank stands in front of the word, for it is no character of it.
      rcases List.append_eq_append_iff.mp hfront with ⟨inner, -, hinner⟩ | ⟨inner, -, hinner⟩
      · exact absurd (by rw [hinner]; simp) hnot
      · cases inner with
        | nil =>
          rw [List.nil_append] at hinner
          exact absurd (hinner ▸ List.mem_cons_self) hnot
        | cons e inner =>
          obtain ⟨-, rfl⟩ := List.cons.inj hinner
          exact .inr ⟨inner, back, rfl⟩

end Scrubber

namespace LogicalLine

open Scrubber

variable {lines before after : List Text} {line : LogicalLine} {b : Buffer} {m : ScrubMode}
  {joined piece raw : Text}

theorem append_eq_if (joined piece : Text) :
    append joined piece =
      if Text.trim piece = [] then joined
      else if joined = [] then Text.trim piece
      else joined ++ ' ' :: Text.trim piece := by
  simp only [append, List.isEmpty_iff]

/-- Where texts are joined, so are their codes; the blank between them stands in code if they
are joined there, and inside the literal that goes on otherwise. -/
theorem exists_joined {marks more : MarkedText} {code shown : Text} {between : ScrubMode}
    (h : HasCode .code marks code between) (hmore : HasCode between more shown m) :
    ∃ all, all.map Prod.fst = append (marks.map Prod.fst) (more.map Prod.fst) ∧
      HasCode .code all (append code shown) m ∧
      ∀ word, (∀ c ∈ word, Text.isBlank c = false) → Hides all word →
        Hides marks word ∨ Hides more word := by
  obtain ⟨kept, hpart, htext, hcode⟩ := hmore.trim
  simp only [append_eq_if, ← htext, List.map_eq_nil_iff]
  by_cases hkept : kept = []
  · obtain rfl := hkept
    obtain ⟨hempty, rfl⟩ := hcode.of_nil
    rw [if_pos rfl, if_pos hempty]
    exact ⟨marks, rfl, h, fun word _ hword => .inl hword⟩
  · rw [if_neg hkept]
    by_cases hmarks : marks = []
    · obtain rfl := hmarks
      obtain ⟨rfl, rfl⟩ := h.of_nil
      rw [if_pos rfl, if_neg (mt hcode.nil_iff.mp hkept), if_pos rfl]
      exact ⟨kept, rfl, hcode, fun word _ hword => .inr (hword.mono hpart)⟩
    · have hword (hidden : Bool) (word : Text) (hblank : ∀ c ∈ word, Text.isBlank c = false)
          (hword : Hides (marks ++ (' ', hidden) :: kept) word) :
          Hides marks word ∨ Hides more word :=
        (hword.of_join hblank).imp_right fun hkept => hkept.mono hpart
      have hblank (hidden : Bool) :
          ∀ d ∈ ((' ', hidden) :: kept).head?, Text.isIdentPart d.1 = false := by
        rintro d ⟨⟩
        exact (by decide : Text.isIdentPart ' ' = false)
      rw [if_neg hmarks, if_neg (mt h.nil_iff.mp hmarks)]
      by_cases hbetween : between = .code
      · obtain rfl := hbetween
        rw [if_neg (mt hcode.nil_iff.mp hkept)]
        exact ⟨_, by simp, h.append (hblank false) (.char (by decide) hcode), hword false⟩
      · refine ⟨marks ++ (' ', true) :: kept, by simp, ?_, hword true⟩
        split
        · rename_i hempty
          rw [hempty] at hcode
          simpa using h.append (hblank true) (.inside hbetween (.inl rfl) hcode)
        · exact h.append (hblank true) (.inside hbetween (.inr ⟨rfl, by decide⟩) hcode)

/-- A word stands inside a literal on one of the physical lines of a logical line. -/
def HidesWord (lines : List Text) (line : LogicalLine) (word : Text) : Prop :=
  ∃ n marks, line.first ≤ n + 1 ∧ n + 1 ≤ line.last ∧ (markedLines lines)[n]? = some marks ∧
    Hides marks word

/-- The text and the code of a logical line are read off one marked text, up to which the
scrubber gets to the given mode. -/
def Marked (lines : List Text) (line : LogicalLine) (m : ScrubMode) : Prop :=
  ∃ marks, marks.map Prod.fst = line.text ∧ HasCode .code marks line.code m ∧
    ∀ word, (∀ c ∈ word, Text.isBlank c = false) → Hides marks word → HidesWord lines line word

/-- The marked text of a physical line. -/
theorem markedLines_append (before : List Text) (raw : Text) (rest : List Text) :
    (markedLines (before ++ raw :: rest))[before.length]? =
      some (markFrom (({} : Scrubber).after before).mode raw) := by
  rw [markedLines_getElem?]
  simp

theorem hasCode_scrub (before : List Text) (raw : Text) :
    HasCode (({} : Scrubber).after before).mode.uncommented
      (markFrom (({} : Scrubber).after before).mode raw)
      ((({} : Scrubber).after before).scrub raw).1
      ((({} : Scrubber).after before).scrub raw).2.mode.uncommented := by
  have hcode := hasCode_markFrom (proper_after (s := {}) trivial before) raw
  rw [scrub, after_keepLiterals]
  exact hcode

theorem map_fst_scrub (s : Scrubber) (raw : Text) :
    (markFrom s.mode raw).map Prod.fst = (s.keeping.scrub raw).1 :=
  map_fst_markFrom s.mode raw

theorem marked_single (hfresh : ({} : Scrubber).after before = {}) (raw : Text)
    (rest : List Text) :
    Marked (before ++ raw :: rest)
      (single (before.length + 1) {} ({} : Scrubber).keeping raw)
      (({} : Scrubber).scrub raw).2.mode.uncommented := by
  have hmarks := markedLines_append before raw rest
  have hcode := hasCode_scrub before raw
  rw [hfresh] at hmarks hcode
  exact ⟨_, map_fst_scrub {} raw, hcode,
    fun word _ hword => ⟨before.length, _, Nat.le_refl _, Nat.le_refl _, hmarks, hword⟩⟩

theorem Buffer.marked_start (kind : Pending) (h : Marked lines line m) :
    Marked lines (Buffer.start kind line).line m := by
  obtain ⟨marks, htext, hcode, hwords⟩ := h
  obtain ⟨kept, hpart, hkept, hcode⟩ := hcode.trim
  exact ⟨kept, by rw [hkept, htext]; rfl, hcode,
    fun word hblank hword => hwords word hblank (hword.mono hpart)⟩

/-- A physical line that goes on where the buffer has got to is joined to its marked text. -/
theorem Buffer.marked_push (hlines : lines = before ++ raw :: after)
    (hspan : b.line.first ≤ before.length ∧ b.line.last = before.length)
    (h : Marked lines b.line (({} : Scrubber).after before).mode.uncommented) :
    Marked lines
      (b.push (before.length + 1) ((({} : Scrubber).after before).keeping.scrub raw).1
        ((({} : Scrubber).after before).scrub raw).1).line
      ((({} : Scrubber).after before).scrub raw).2.mode.uncommented := by
  obtain ⟨marks, htext, hcode, hwords⟩ := h
  obtain ⟨all, hall, hallcode, hsplit⟩ := exists_joined hcode (hasCode_scrub before raw)
  refine ⟨all, by rw [hall, htext, map_fst_scrub]; rfl, hallcode, fun word hblank hword => ?_⟩
  obtain ⟨hfirst, hlast⟩ := hspan
  rcases hsplit word hblank hword with hold | hnew
  · obtain ⟨n, taken, hle, hge, htaken, hhides⟩ := hwords word hblank hold
    exact ⟨n, taken, hle, (by omega : n + 1 ≤ before.length + 1), htaken, hhides⟩
  · exact ⟨before.length, _, Nat.le_succ_of_le hfirst, Nat.le_refl _,
      by rw [hlines, markedLines_append], hnew⟩

/-- The line that comes out of a buffer has a marked text if the buffer has one. -/
theorem exists_marked_of_buffer (before after : List Text) {rest : List LogicalLine}
    (hlines : lines = before ++ after)
    (hspan : b.line.first ≤ before.length ∧ b.line.last = before.length)
    (hb : Marked lines b.line (({} : Scrubber).after before).mode.uncommented)
    (h : ofLinesFrom (before.length + 1) (({} : Scrubber).after before)
      (({} : Scrubber).after before).keeping (some b) after = line :: rest) :
    ∃ m, Marked lines line m := by
  induction after generalizing before b with
  | nil =>
    obtain ⟨rfl, -⟩ := List.cons.inj h
    exact ⟨_, hb⟩
  | cons raw after ih =>
    have hpush := Buffer.marked_push hlines hspan hb
    have hnext : ((({} : Scrubber).after before).scrub raw).2 =
        ({} : Scrubber).after (before ++ [raw]) := by simp [after_append]
    rw [ofLinesFrom_push] at h
    split at h
    · obtain ⟨rfl, -⟩ := List.cons.inj h
      exact ⟨_, hpush⟩
    · rw [scrub_keeping (after_keepLiterals {} before), hnext] at h
      rw [hnext] at hpush
      refine ih (before ++ [raw]) (by simp [hlines]) ?_ hpush (by simpa using h)
      simpa [Buffer.push] using Nat.le_succ_of_le hspan.1

/-- A logical line that begins in code has a marked text. -/
theorem exists_marked (hline : line ∈ ofLines lines) (hplain : line.continues = false) :
    ∃ m, Marked lines line m := by
  obtain ⟨passed, rest, hsplit⟩ := List.append_of_mem hline
  obtain ⟨before, left, rfl, hfirst, hcontinues, hleft⟩ := ofLines_split hsplit
  have hfresh : ({} : Scrubber).after before = {} :=
    eq_fresh (after_keepLiterals _ before) (hcontinues ▸ hplain)
  rw [hfresh, hfirst] at hleft
  cases left with
  | nil => cases hleft
  | cons raw left =>
    have hsingle := marked_single hfresh raw left
    rw [ofLinesFrom_single] at hleft
    split at hleft
    · rename_i kind hkind
      have hnext : (({} : Scrubber).scrub raw).2 = ({} : Scrubber).after (before ++ [raw]) := by
        simp [after_append, hfresh]
      rw [scrub_keeping rfl, hnext] at hleft
      rw [hnext] at hsingle
      refine exists_marked_of_buffer (before ++ [raw]) left (by simp) ?_
        (Buffer.marked_start kind hsingle) (by simpa using hleft)
      simp [Buffer.start, single]
    · obtain ⟨rfl, -⟩ := List.cons.inj hleft
      exact ⟨_, hsingle⟩

end LogicalLine

end PhpLint
