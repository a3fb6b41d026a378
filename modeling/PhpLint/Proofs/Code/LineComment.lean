import PhpLint.Proofs.Code.Scrubber
import PhpLint.Proofs.Text.Padding

/-!
A line comment at the end of a line. Where the line ends in plain code, the scrubber
drops the comment; of what stands in front of it, a blank may be left over, and the
scrubber reaches the next line as it would without the comment.
-/

namespace PhpLint

namespace Text

/-- A line with a line comment behind it. -/
def withComment (line comment : Text) : Text := line ++ (" // ".toList ++ comment)

/-- The comment with the blank in front of it. -/
theorem withComment_eq (line comment : Text) :
    withComment line comment = line ++ ' ' :: '/' :: '/' :: ' ' :: comment := rfl

end Text

namespace Scrubber

variable {comment : Text}

/-- A heredoc that is not opened is not opened either with a text behind it that starts
with neither a quote nor a label, blanks aside. -/
theorem heredocLabel?_append {rest t : Text} (h : heredocLabel? rest = none)
    (hstart : ∀ c ∈ t.head?, (c == '\'' || c == '"') = false ∧ Text.isIdentPart c = false)
    (htrim : ∀ c ∈ (Text.trimStart t).head?,
      (c == '\'' || c == '"') = false ∧ Text.isIdentPart c = false) :
    heredocLabel? (rest ++ t) = none := by
  have hlabel {u : Text} (hu : ∀ c ∈ u.head?,
      (c == '\'' || c == '"') = false ∧ Text.isIdentPart c = false) :
      (u.dropWhile fun c => c == '\'' || c == '"').takeWhile Text.isIdentPart = [] := by
    cases u with
    | nil => rfl
    | cons c u =>
      obtain ⟨hquote, hident⟩ := hu c rfl
      simp only [List.dropWhile_cons, hquote, Bool.false_eq_true, if_false, List.takeWhile_cons,
        hident]
  unfold heredocLabel? at h ⊢
  unfold Text.trimStart at h htrim ⊢
  rw [List.dropWhile_append]
  by_cases hrest : rest.dropWhile Text.isBlank = []
  · rw [if_pos (by simpa using hrest), hlabel htrim]
  · rw [if_neg (by simpa using hrest), List.dropWhile_append]
    cases hquoted : (rest.dropWhile Text.isBlank).dropWhile fun c => c == '\'' || c == '"' with
    | nil => simp [hlabel hstart]
    | cons c label =>
      rw [hquoted] at h
      cases hc : Text.isIdentPart c with
      | true =>
        simp only [List.takeWhile_cons_of_pos hc] at h
        split at h
        · rename_i hdigit
          simp [hc, hdigit]
        · cases h
      | false => simp [hc]

/-- No heredoc is opened by a comment, nor by what stands in front of it. -/
theorem heredocLabel?_comment {rest : Text} (h : heredocLabel? rest = none) (comment : Text) :
    heredocLabel? (rest ++ ' ' :: '/' :: '/' :: comment) = none := by
  have htrim : Text.trimStart (' ' :: '/' :: '/' :: comment) = '/' :: '/' :: comment := rfl
  refine heredocLabel?_append h ?_ (htrim ▸ ?_)
  all_goals
    intro c hc
    obtain rfl := Option.some.inj hc
    decide

/-- A line that ends in plain code ends in plain code with a comment behind it, of which at
most the blank is left. -/
theorem Scans.withComment {mode : ScrubMode} {line kept code : Text}
    (h : Scans mode line kept code .code) (comment : Text) :
    ∃ blank, (blank = [] ∨ blank = [' ']) ∧
      Scans mode (line ++ ' ' :: '/' :: '/' :: comment) (kept ++ blank) (code ++ blank) .code := by
  generalize hend : ScrubMode.code = m at h
  induction h with
  | nil => exact ⟨[' '], .inr rfl, hend ▸ .char rfl .slashes⟩
  | heredoc | backslash | opensHeredoc => cases hend
  | comment hends h ih =>
    obtain ⟨blank, hblank, hmore⟩ := ih hend
    exact ⟨blank, hblank, .comment (endsComment_append hends (by decide) _) hmore⟩
  | endsComment h ih =>
    obtain ⟨blank, hblank, hmore⟩ := ih hend
    exact ⟨blank, hblank, .endsComment hmore⟩
  | escaped h ih =>
    obtain ⟨blank, hblank, hmore⟩ := ih hend
    exact ⟨blank, hblank, .escaped hmore⟩
  | quoted hc h ih =>
    obtain ⟨blank, hblank, hmore⟩ := ih hend
    exact ⟨blank, hblank, .quoted hc hmore⟩
  | closes hq h ih =>
    obtain ⟨blank, hblank, hmore⟩ := ih hend
    exact ⟨blank, hblank, .closes hq hmore⟩
  | slashes => exact ⟨[], .inl rfl, .slashes⟩
  | hash hattribute =>
    refine ⟨[], .inl rfl, .hash fun more hmore => ?_⟩
    obtain ⟨rest, hrest⟩ := eq_cons_of_append_cons (by decide) hmore
    exact hattribute rest hrest
  | opensComment h ih =>
    obtain ⟨blank, hblank, hmore⟩ := ih hend
    exact ⟨blank, hblank, .opensComment hmore⟩
  | char hopens h ih =>
    obtain ⟨blank, hblank, hmore⟩ := ih hend
    refine ⟨blank, hblank, .char (opensComment_append hopens (by decide) ?_) hmore⟩
    exact fun rest _ hlabel => heredocLabel?_comment hlabel comment

/-- What the scrubber makes of a line that ends in plain code, with a comment behind it. -/
theorem scan_withComment {keep : Bool} {mode : ScrubMode} {line : Text} (comment : Text)
    (h : (scan keep mode line).2 = .code) :
    ∃ blank, (blank = [] ∨ blank = [' ']) ∧
      scan keep mode (line ++ ' ' :: '/' :: '/' :: comment) =
        ((scan keep mode line).1 ++ blank, .code) := by
  have hsteps := scans mode line
  rw [← scan_mode keep, h] at hsteps
  obtain ⟨blank, hblank, hmore⟩ := hsteps.withComment comment
  refine ⟨blank, hblank, ?_⟩
  rw [hmore.scan_eq keep, hsteps.scan_eq keep]
  cases keep <;> rfl

theorem trimStart_comment {line : Text} (h : Text.trimStart line ≠ []) (comment : Text) :
    Text.trimStart (line ++ comment) = Text.trimStart line ++ comment := by
  rw [Text.trimStart, List.dropWhile_append, if_neg (by simpa [Text.trimStart] using h)]
  rfl

theorem strip?_append {start s rest : Text} (h : Text.strip? start s = some rest) (t : Text) :
    Text.strip? start (s ++ t) = some (rest ++ t) := by
  rw [Text.strip?_eq_some_iff] at h ⊢
  rw [h, List.append_assoc]

/-- A heredoc that a line closes is closed in front of a comment as well. -/
theorem closeHeredoc?_comment {label line rest : Text} (h : closeHeredoc? label line = some rest)
    (comment : Text) :
    ∃ rest', closeHeredoc? label (line ++ ' ' :: '/' :: '/' :: comment) = some rest' ∧
      (rest' = rest ++ ' ' :: '/' :: '/' :: comment ∨
        rest = [] ∧ rest' = '/' :: '/' :: comment) := by
  unfold closeHeredoc? at h
  cases hline : Text.trimStart line with
  | nil =>
    -- Only a label without any text is found on a blank line.
    rw [hline] at h
    obtain rfl : label = [] := by
      cases label with
      | nil => rfl
      | cons c label => simp [Text.strip?] at h
    obtain rfl := Option.some.inj h
    have hstart : Text.trimStart (line ++ ' ' :: '/' :: '/' :: comment) =
        '/' :: '/' :: comment := by
      have hempty : (line.dropWhile Text.isBlank).isEmpty = true := by
        simpa [Text.trimStart] using hline
      rw [Text.trimStart, List.dropWhile_append, if_pos hempty]
      rfl
    exact ⟨_, by rw [closeHeredoc?, hstart]; rfl, .inr ⟨rfl, rfl⟩⟩
  | cons c t =>
    have hstart := trimStart_comment (hline ▸ List.cons_ne_nil c t) (' ' :: '/' :: '/' :: comment)
    rw [hline] at h hstart
    refine ⟨_, ?_, .inl rfl⟩
    rw [closeHeredoc?, hstart]
    split at h
    · rename_i hstrip
      obtain rfl := Option.some.inj h
      rw [strip?_append hstrip]
      rfl
    · rename_i d more hstrip
      split at h
      · cases h
      · rename_i hpart
        obtain rfl := Option.some.inj h
        rw [strip?_append hstrip]
        simp [hpart]
    · cases h

/-- What the scrubber makes of a line that ends in plain code, with a comment behind it. -/
theorem scrub_withComment {s : Scrubber} {line : Text} (h : (s.scrub line).2.mode = .code)
    (comment : Text) :
    ∃ blank, (blank = [] ∨ blank = [' ']) ∧
      s.scrub (Text.withComment line comment) = ((s.scrub line).1 ++ blank, (s.scrub line).2) := by
  rw [Text.withComment_eq]
  obtain ⟨keep, mode⟩ := s
  cases mode with
  | heredoc label =>
    simp only [scrub, scrubFrom] at h ⊢
    cases hclose : closeHeredoc? label line with
    | none => simp [hclose] at h
    | some rest =>
      simp only [hclose] at h
      obtain ⟨rest', hclose', hrest⟩ := closeHeredoc?_comment hclose (' ' :: comment)
      have hrest' : ∃ blank, (blank = [] ∨ blank = [' ']) ∧
          scan keep .code rest' = ((scan keep .code rest).1 ++ blank, .code) := by
        rcases hrest with rfl | ⟨rfl, rfl⟩
        · exact scan_withComment (' ' :: comment) h
        · exact ⟨[], .inl rfl, by simp [scan]⟩
      obtain ⟨blank, hblank, hscan⟩ := hrest'
      exact ⟨blank, hblank, by simp [hclose', hscan, h]⟩
  | code | comment | literal =>
    obtain ⟨blank, hblank, hscan⟩ := scan_withComment (' ' :: comment) h
    refine ⟨blank, hblank, ?_⟩
    simp only [scrub, scrubFrom] at h hscan ⊢
    rw [hscan, h]

end Scrubber

end PhpLint
