import PhpLint.Proofs.Code.Scrubber
import PhpLint.Proofs.Text.Basic

/-!
A lexer of a whole file beside the scrubber that reads one line at a time. The
lexer sees the file as one stream, in which a newline is a mark of its own, and
it looks ahead as far as it needs. Main statement: the scrubber, fed the lines
in order, returns for each line the code that the lexer selects in it, and what
it carries to the next line is the mode of the lexer at the newline.
-/

namespace PhpLint

namespace Lexer

/-- The characters of a file in order; `none` is a newline. -/
abbrev Stream := List (Option Char)

/-- The lines of a file with newlines between them. -/
def joined : List Text → Stream
  | [] => []
  | [line] => line.map some
  | line :: next :: lines => line.map some ++ none :: joined (next :: lines)

/-- A text as a stream. -/
def ofText (s : Text) : Stream := s.map fun c => if c = '\n' then none else some c

inductive Mode where
  | code
  | lineComment
  | blockComment
  | string (quote : Char)
  | heredoc (label : Text)
  deriving DecidableEq, Repr

def Mode.inComment : Mode → Bool
  | .blockComment => true
  | _ => false

def Mode.inLiteral : Mode → Bool
  | .string _ | .heredoc _ => true
  | _ => false

/-- Drops characters with a property, but no newline. -/
def skip (p : Char → Bool) (stream : Stream) : Stream := stream.dropWhile (Option.any p)

/-- The characters with a property at the start of a stream. -/
def word (p : Char → Bool) (stream : Stream) : Text :=
  (stream.takeWhile (Option.any p)).filterMap id

/-- The label of a heredoc that opens before the stream. -/
def label? (stream : Stream) : Option Text :=
  let label := word Text.isIdentPart (skip (fun c => c == '\'' || c == '"')
    (skip Text.isBlank stream))
  if label = [] ∨ label.head?.any Char.isDigit then none else some label

/-- What follows the label of a heredoc, where a line that starts with the stream
closes it. -/
def closing? (label : Text) (stream : Stream) : Option Stream :=
  let line := skip Text.isBlank stream
  let rest := line.drop label.length
  if (label.map some).isPrefixOf line ∧ word Text.isIdentPart rest = [] then some rest else none

/-- What the start of a line contributes: the mode in which the line goes on, and
where it does so. -/
def resume : Mode → Stream → Text × Mode × Stream
  | .lineComment, stream => ([], .code, stream)
  | .heredoc label, stream =>
    match closing? label stream with
    | some rest => (['"', '"'], .code, rest)
    | none => ([], .heredoc label, stream)
  | mode, stream => ([], mode, stream)

/-- Adds code in front of the first of some lines. -/
def emit (out : Text) : List (Text × Mode) → List (Text × Mode)
  | [] => []
  | (line, mode) :: lines => (out ++ line, mode) :: lines

@[simp] theorem emit_nil (lines : List (Text × Mode)) : emit [] lines = lines := by
  cases lines <;> rfl

theorem emit_emit (out more : Text) (lines : List (Text × Mode)) :
    emit out (emit more lines) = emit (out ++ more) lines := by
  cases lines with
  | nil => rfl
  | cons line lines => simp [emit]

theorem closing?_length_le {label : Text} {stream rest : Stream}
    (h : closing? label stream = some rest) : rest.length ≤ stream.length := by
  simp only [closing?, Option.ite_none_right_eq_some, Option.some.injEq] at h
  obtain ⟨-, rfl⟩ := h
  have hskip : (skip Text.isBlank stream).length ≤ stream.length :=
    (List.dropWhile_sublist (Option.any Text.isBlank)).length_le
  simp only [List.length_drop]
  omega

theorem resume_length_le (mode : Mode) (stream : Stream) :
    (resume mode stream).2.2.length ≤ stream.length := by
  cases mode with
  | heredoc label =>
    simp only [resume]
    cases hclose : closing? label stream with
    | some rest => exact closing?_length_le hclose
    | none => exact Nat.le_refl _
  | code | lineComment | blockComment | string => exact Nat.le_refl _

/-- The code of every line of a file with the mode at the end of the line. -/
def lex : Mode → Stream → List (Text × Mode)
  | mode, [] => [([], mode)]
  | mode, none :: rest =>
    -- A mode goes on behind the newline, unless the new line ends it.
    ([], mode) :: emit (resume mode rest).1 (lex (resume mode rest).2.1 (resume mode rest).2.2)
  | .lineComment, some _ :: rest => lex .lineComment rest
  | .heredoc label, some _ :: rest => lex (.heredoc label) rest
  | .blockComment, some '*' :: some '/' :: rest => emit [' '] (lex .code rest)
  | .blockComment, some _ :: rest => lex .blockComment rest
  | .string q, some '\\' :: some _ :: rest => lex (.string q) rest
  -- Here the backslash hides the newline that follows it.
  | .string q, some '\\' :: rest => lex (.string q) rest
  | .string q, some c :: rest =>
    if c = q then emit [c] (lex .code rest) else lex (.string q) rest
  | .code, some '/' :: some '/' :: rest => lex .lineComment rest
  | .code, some '/' :: some '*' :: rest => lex .blockComment rest
  | .code, some '#' :: some '[' :: rest => emit ['#', '['] (lex .code rest)
  | .code, some '#' :: rest => lex .lineComment rest
  | .code, some '<' :: some '<' :: some '<' :: rest =>
    match label? rest with
    | some label => emit ['"', '"'] (lex (.heredoc label) rest)
    | none => emit ['<'] (lex .code (some '<' :: some '<' :: rest))
  | .code, some c :: rest =>
    if c = '\'' ∨ c = '"' ∨ c = '`' then emit [c] (lex (.string c) rest)
    else emit [c] (lex .code rest)
termination_by _ stream => stream.length
decreasing_by
  all_goals simp only [List.length_cons]
  case _ => have := resume_length_le mode rest; omega
  all_goals omega

/-- The scrubber's mode as a mode of the lexer. -/
def Mode.ofScrub : ScrubMode → Mode
  | .code => .code
  | .comment => .blockComment
  | .literal q => .string q
  | .heredoc label => .heredoc label

/-- A stream at which no character of the current line is left. -/
def AtLineEnd (stream : Stream) : Prop := ∀ c rest, stream ≠ some c :: rest

@[simp] theorem atLineEnd_nil : AtLineEnd [] := by
  intro c rest h
  cases h

@[simp] theorem atLineEnd_newline (stream : Stream) : AtLineEnd (none :: stream) := by
  intro c rest h
  cases h

theorem AtLineEnd.eq_nil_or_newline {stream : Stream} (h : AtLineEnd stream) :
    stream = [] ∨ ∃ rest, stream = none :: rest := by
  cases stream with
  | nil => exact Or.inl rfl
  | cons mark rest =>
    cases mark with
    | none => exact Or.inr ⟨rest, rfl⟩
    | some c => exact absurd rfl (h c rest)

section Lookahead

variable {tail : Stream} (htail : AtLineEnd tail)
include htail

theorem skip_line (p : Char → Bool) (line : Text) :
    skip p (line.map some ++ tail) = (line.dropWhile p).map some ++ tail := by
  induction line with
  | nil => rcases htail.eq_nil_or_newline with rfl | ⟨rest, rfl⟩ <;> rfl
  | cons c line ih =>
    cases hc : p c with
    | true => simpa [skip, hc] using ih
    | false => simp [skip, hc]

theorem word_line (p : Char → Bool) (line : Text) :
    word p (line.map some ++ tail) = line.takeWhile p := by
  induction line with
  | nil => rcases htail.eq_nil_or_newline with rfl | ⟨rest, rfl⟩ <;> rfl
  | cons c line ih =>
    cases hc : p c with
    | true => simpa [word, hc] using ih
    | false => simp [word, hc]

/-- A character that comes next in the stream comes next on the line. -/
theorem line_eq_cons {line : Text} {c : Char} {stream : Stream}
    (h : line.map some ++ tail = some c :: stream) :
    ∃ rest, line = c :: rest ∧ stream = rest.map some ++ tail := by
  cases line with
  | nil => exact absurd h (htail c stream)
  | cons d rest =>
    simp only [List.map_cons, List.cons_append, List.cons.injEq, Option.some.injEq] at h
    obtain ⟨rfl, rfl⟩ := h
    exact ⟨rest, rfl, rfl⟩

/-- A text with which the rest of the stream starts is one with which the rest of
the line starts. -/
theorem prefix_of_prefix_line {label text : Text}
    (h : label.map some <+: text.map some ++ tail) : label <+: text := by
  induction label generalizing text with
  | nil => exact List.nil_prefix
  | cons c label ih =>
    obtain ⟨rest, hrest⟩ := h
    obtain ⟨text', rfl, hrest'⟩ := line_eq_cons htail hrest.symm
    have hlabel : label <+: text' := ih ⟨rest, hrest'⟩
    exact List.cons_prefix_cons.mpr ⟨rfl, hlabel⟩

theorem label?_line (line : Text) :
    label? (line.map some ++ tail) = Scrubber.heredocLabel? line := by
  simp only [label?, skip_line htail, word_line htail, Scrubber.heredocLabel?, Text.trimStart]
  generalize List.takeWhile Text.isIdentPart _ = label
  cases label with
  | nil => rfl
  | cons c label => simp

theorem closing?_line (label line : Text) :
    closing? label (line.map some ++ tail) =
      (Scrubber.closeHeredoc? label line).map (·.map some ++ tail) := by
  simp only [closing?, skip_line htail, Scrubber.closeHeredoc?, Text.trimStart]
  generalize line.dropWhile Text.isBlank = text
  cases hstrip : Text.strip? label text with
  | some rest =>
    obtain rfl := Text.strip?_eq_some_iff.mp hstrip
    have hrest : ((label ++ rest).map some ++ tail).drop label.length = rest.map some ++ tail := by
      simp
    rw [hrest, word_line htail]
    cases rest with
    | nil => simp
    | cons c rest => cases hc : Text.isIdentPart c <;> simp [hc]
  | none =>
    have hstarts : ¬ label.map some <+: text.map some ++ tail := by
      intro hstarts
      obtain ⟨rest, rfl⟩ := prefix_of_prefix_line htail hstarts
      rw [Text.strip?_eq_some_iff.mpr rfl] at hstrip
      cases hstrip
    simp [hstarts]

/-- A character that does not end a block comment is skipped in it. -/
theorem lex_blockComment_char {c : Char} {line : Text}
    (hends : Scrubber.endsComment (c :: line) = false) :
    lex .blockComment (some c :: (line.map some ++ tail)) =
      lex .blockComment (line.map some ++ tail) := by
  rw [lex]
  rintro more hmore rfl
  obtain ⟨rest, rfl, -⟩ := line_eq_cons htail hmore
  cases hends

/-- A number sign that does not open an attribute opens a line comment. -/
theorem lex_hash {line : Text} (hattribute : ∀ more, line ≠ '[' :: more) :
    lex .code (some '#' :: (line.map some ++ tail)) = lex .lineComment (line.map some ++ tail) := by
  rw [lex]
  intro more hmore
  obtain ⟨rest, hrest, -⟩ := line_eq_cons htail hmore
  exact hattribute rest hrest

/-- What opens neither a comment nor a heredoc is code. -/
theorem lex_code_char {c : Char} {line : Text}
    (hopens : Scrubber.opensComment (c :: line) = false) :
    lex .code (some c :: (line.map some ++ tail)) =
      emit [c] (lex (Mode.ofScrub (Scrubber.modeAfter c)) (line.map some ++ tail)) := by
  cases Scrubber.opensComment_eq_false_iff.mp hopens with
  | group => simp [lex, Scrubber.modeAfter, Mode.ofScrub, emit_emit]
  | unlabelled hlabel => simp [lex, Scrubber.modeAfter, Mode.ofScrub, label?_line htail, hlabel]
  | other hslashes hblock hhash hheredoc =>
    rw [lex, Scrubber.modeAfter]
    · split <;> rfl
    · rintro more hmore rfl
      obtain ⟨rest, rfl, -⟩ := line_eq_cons htail hmore
      exact hslashes rest rfl rfl
    · rintro more hmore rfl
      obtain ⟨rest, rfl, -⟩ := line_eq_cons htail hmore
      exact hblock rest rfl rfl
    · exact fun _ _ hc => hhash hc
    · exact hhash
    · rintro more hmore rfl
      obtain ⟨second, rfl, hmore'⟩ := line_eq_cons htail hmore
      obtain ⟨third, rfl, -⟩ := line_eq_cons htail hmore'.symm
      exact hheredoc third rfl rfl

end Lookahead

theorem lex_string_char {q c : Char} (hc : c ≠ '\\') (stream : Stream) :
    lex (.string q) (some c :: stream) =
      if c = q then emit [c] (lex .code stream) else lex (.string q) stream := by
  rw [lex]
  · intro d more _ hescape
    exact hc hescape
  · exact hc

theorem lex_heredoc_line (label line : Text) (tail : Stream) :
    lex (.heredoc label) (line.map some ++ tail) = lex (.heredoc label) tail := by
  induction line with
  | nil => rfl
  | cons c line ih => rw [List.map_cons, List.cons_append, lex, ih]

theorem lex_lineComment_line (line : Text) (tail : Stream) :
    lex .lineComment (line.map some ++ tail) = lex .lineComment tail := by
  induction line with
  | nil => rfl
  | cons c line ih => rw [List.map_cons, List.cons_append, lex, ih]

/-- What the scrubber carries over the end of a line. -/
def Mode.carried : Mode → ScrubMode
  | .code | .lineComment => .code
  | .blockComment => .comment
  | .string q => .literal q
  | .heredoc label => .heredoc label

theorem Mode.carried_ofScrub (mode : ScrubMode) : (Mode.ofScrub mode).carried = mode := by
  cases mode <;> rfl

/-- The lexer reads the rest of a line as the scrubber does: it selects the same
code and comes to the end of the line in a mode that the scrubber carries on. -/
def Agrees (tail : Stream) (lexed : List (Text × Mode)) (scrubbed : Text × ScrubMode) : Prop :=
  ∃ atEnd : Mode, atEnd.carried = scrubbed.2 ∧ lexed = emit scrubbed.1 (lex atEnd tail)

theorem Agrees.emit {tail : Stream} {lexed : List (Text × Mode)} {scrubbed : Text × ScrubMode}
    (h : Agrees tail lexed scrubbed) (out : Text) :
    Agrees tail (emit out lexed) (out ++ scrubbed.1, scrubbed.2) := by
  obtain ⟨atEnd, hcarried, rfl⟩ := h
  exact ⟨atEnd, hcarried, emit_emit out scrubbed.1 (lex atEnd tail)⟩

/-- From the middle of a line, by the steps of the scrubber; the line ends before
anything that the lexer could see further on. -/
theorem agrees_lex {tail : Stream} (htail : AtLineEnd tail) {mode m : ScrubMode}
    {line kept code : Text} (h : Scrubber.Scans mode line kept code m) :
    Agrees tail (lex (Mode.ofScrub mode) (line.map some ++ tail)) (code, m) := by
  induction h with
  | @nil mode => exact ⟨Mode.ofScrub mode, Mode.carried_ofScrub mode, by simp⟩
  | @heredoc label line =>
    refine ⟨.heredoc label, rfl, ?_⟩
    simp [Mode.ofScrub, lex_heredoc_line]
  | comment hends h ih =>
    simp only [List.map_cons, List.cons_append, Mode.ofScrub]
    rw [lex_blockComment_char htail hends]
    exact ih
  | endsComment h ih =>
    simp only [List.map_cons, List.cons_append, Mode.ofScrub, lex]
    exact ih.emit [' ']
  | @backslash q =>
    refine ⟨.string q, rfl, ?_⟩
    simp only [List.map_cons, List.map_nil, List.cons_append, List.nil_append, Mode.ofScrub]
    rw [lex]
    · simp
    · exact htail
  | escaped h ih =>
    simp only [List.map_cons, List.cons_append, Mode.ofScrub, lex]
    exact ih
  | quoted hc h ih =>
    simp only [List.map_cons, List.cons_append, Mode.ofScrub]
    rw [lex_string_char hc.2, if_neg hc.1]
    exact ih
  | @closes q rest kept code m hq h ih =>
    simp only [List.map_cons, List.cons_append, Mode.ofScrub]
    rw [lex_string_char hq, if_pos rfl]
    exact ih.emit [q]
  | slashes =>
    refine ⟨.lineComment, rfl, ?_⟩
    simp [Mode.ofScrub, lex, lex_lineComment_line]
  | hash hattribute =>
    refine ⟨.lineComment, rfl, ?_⟩
    simp only [List.map_cons, List.cons_append, Mode.ofScrub]
    rw [lex_hash htail hattribute, lex_lineComment_line, emit_nil]
  | opensComment h ih =>
    simp only [List.map_cons, List.cons_append, Mode.ofScrub, lex]
    exact ih
  | @opensHeredoc rest label hlabel =>
    refine ⟨.heredoc label, rfl, ?_⟩
    simp [Mode.ofScrub, lex, label?_line htail, hlabel, lex_heredoc_line]
  | @char c rest kept code m hopens h ih =>
    simp only [List.map_cons, List.cons_append, Mode.ofScrub]
    rw [lex_code_char htail hopens]
    exact ih.emit [c]

/-- As the scrubber reads the rest of a line. -/
theorem agrees_lex_scan {tail : Stream} (htail : AtLineEnd tail) (mode : ScrubMode)
    (line : Text) :
    Agrees tail (lex (Mode.ofScrub mode) (line.map some ++ tail))
      (Scrubber.scan false mode line) :=
  agrees_lex htail (Scrubber.scans mode line)

/-- Lexes from the start of a line, in the mode at the newline before it. -/
def lexLines (mode : Mode) (stream : Stream) : List (Text × Mode) :=
  emit (resume mode stream).1 (lex (resume mode stream).2.1 (resume mode stream).2.2)

theorem lex_newline (mode : Mode) (stream : Stream) :
    lex mode (none :: stream) = ([], mode) :: lexLines mode stream := by
  rw [lex, lexLines]

/-- From the start of a line. -/
theorem agrees_lexLines {tail : Stream} (htail : AtLineEnd tail) (mode : Mode) (line : Text) :
    Agrees tail (lexLines mode (line.map some ++ tail))
      (Scrubber.scrubFrom false mode.carried line) := by
  cases mode with
  | code | lineComment =>
    simp only [lexLines, resume, emit_nil]
    exact agrees_lex_scan htail .code line
  | blockComment =>
    simp only [lexLines, resume, emit_nil]
    exact agrees_lex_scan htail .comment line
  | string q =>
    simp only [lexLines, resume, emit_nil]
    exact agrees_lex_scan htail (.literal q) line
  | heredoc label =>
    simp only [lexLines, resume, closing?_line htail, Mode.carried, Scrubber.scrubFrom]
    cases hclose : Scrubber.closeHeredoc? label line with
    | none =>
      refine ⟨.heredoc label, rfl, ?_⟩
      simp [lex_heredoc_line]
    | some rest => exact (agrees_lex_scan htail .code rest).emit ['"', '"']

/-- What the scrubber carries tells whether the lexer is in a comment or in a literal. -/
theorem flags_carried (mode : Mode) :
    ({ mode := mode.carried } : Scrubber).inComment = mode.inComment ∧
      ({ mode := mode.carried } : Scrubber).inLiteral = mode.inLiteral := by
  cases mode <;> exact ⟨rfl, rfl⟩

/-- From the start of a line to the end of the file. -/
theorem lexLines_joined (mode : Mode) (line : Text) (lines : List Text) :
    (({ mode := mode.carried } : Scrubber).scrubAll (line :: lines)).map
        (fun (code, s) => (code, s.inComment, s.inLiteral)) =
      (lexLines mode (joined (line :: lines))).map
        (fun (code, mode) => (code, mode.inComment, mode.inLiteral)) := by
  induction lines generalizing mode line with
  | nil =>
    obtain ⟨atEnd, hcarried, hlex⟩ := agrees_lexLines atLineEnd_nil mode line
    rw [List.append_nil] at hlex
    rw [joined, hlex, lex]
    simp [emit, Scrubber.scrubAll, Scrubber.scrub, ← hcarried, flags_carried]
  | cons next lines ih =>
    obtain ⟨atEnd, hcarried, hlex⟩ :=
      agrees_lexLines (atLineEnd_newline (joined (next :: lines))) mode line
    rw [joined, hlex, lex_newline, emit, List.map_cons, ← ih atEnd, List.append_nil]
    rw [Scrubber.scrubAll, List.map_cons]
    simp only [Scrubber.scrub, ← hcarried, flags_carried]

@[simp] theorem ofText_append (s t : Text) : ofText (s ++ t) = ofText s ++ ofText t :=
  List.map_append

theorem ofText_line {line : Text} (h : '\n' ∉ line) : ofText line = line.map some := by
  apply List.map_congr_left
  intro c hc
  have hne : c ≠ '\n' := ne_of_mem_of_not_mem hc h
  rw [if_neg hne]

theorem joined_eq_ofText {lines : List Text} (h : ∀ line ∈ lines, '\n' ∉ line) :
    joined lines = ofText (Text.join ['\n'] lines) := by
  induction lines with
  | nil => rfl
  | cons line lines ih =>
    have hline := ofText_line (h line List.mem_cons_self)
    cases lines with
    | nil => exact hline.symm
    | cons next lines =>
      have hrest := ih (fun other hmem => h other (List.mem_cons_of_mem line hmem))
      simp only [joined, Text.join, ofText_append, hline, hrest]
      simp [ofText]

theorem lexLines_code (stream : Stream) : lexLines .code stream = lex .code stream := by
  simp [lexLines, resume]

/-- Scrubbing line by line is lexing the file at once. For the lines of a file in
order, the scrubber returns the code that the lexer selects in each of them, and
after each line it tells the mode of the lexer at the newline, where a line
comment counts as code. The lexer finds as many lines as there are, one if there
is none. -/
theorem scrubAll_eq_lex (lines : List Text) :
    (({} : Scrubber).scrubAll lines).map (fun (code, s) => (code, s.inComment, s.inLiteral)) =
        ((lex .code (joined lines)).take lines.length).map
          (fun (code, mode) => (code, mode.inComment, mode.inLiteral)) ∧
      (lex .code (joined lines)).length = max 1 lines.length ∧
      ((∀ line ∈ lines, '\n' ∉ line) → joined lines = ofText (Text.join ['\n'] lines)) := by
  cases lines with
  | nil => exact ⟨rfl, by simp [joined, lex], joined_eq_ofText⟩
  | cons line lines =>
    have hflags := lexLines_joined .code line lines
    rw [lexLines_code] at hflags
    have hlength : (lex .code (joined (line :: lines))).length = (line :: lines).length := by
      have h := congrArg List.length hflags
      rw [List.length_map, List.length_map, Scrubber.scrubAll_length] at h
      exact h.symm
    refine ⟨?_, ?_, joined_eq_ofText⟩
    · rw [← hlength, List.take_length]
      exact hflags
    · rw [hlength, List.length_cons]
      omega

end Lexer

end PhpLint
