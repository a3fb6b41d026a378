import PhpLint.Proofs.Code.Lexer
import PhpLint.Proofs.Code.Literals

/-!
A line that is cut in two at a blank. Where the blank stands in code, in a string or in a
heredoc, the scrubber returns the code of the two lines for that of the uncut line, with the
blank between them if it stands in code, and reads what follows as before.
-/

namespace PhpLint

/-- What a mode can be left by: a quote, or the label of a heredoc, which is a name. -/
def ScrubMode.Proper : ScrubMode → Prop
  | .code | .comment => True
  | .literal q => q ∈ ['\'', '"', '`']
  | .heredoc label => label ≠ [] ∧ ∀ c ∈ label, Text.isIdentPart c = true

namespace Scrubber

variable {mode : ScrubMode} {a b s t label rest : Text}

theorem heredocLabel?_eq_some (h : heredocLabel? s = some label) :
    label = ((Text.trimStart s).dropWhile fun c => c == '\'' || c == '"').takeWhile
      Text.isIdentPart ∧ label ≠ [] := by
  simp only [heredocLabel?] at h
  split at h
  · cases h
  · rename_i hlabel
    split at h
    · cases h
    · obtain rfl := Option.some.inj h
      exact ⟨rfl, hlabel ▸ List.cons_ne_nil _ _⟩

theorem proper_of_heredocLabel? (h : heredocLabel? s = some label) :
    (ScrubMode.heredoc label).Proper := by
  obtain ⟨hlabel, hne⟩ := heredocLabel?_eq_some h
  refine ⟨hne, fun c hc => ?_⟩
  rw [hlabel] at hc
  exact List.mem_takeWhile_imp hc

theorem proper_modeAfter (c : Char) : (modeAfter c).Proper := by
  unfold modeAfter
  split
  · rename_i hquote
    simpa [ScrubMode.Proper] using hquote
  · trivial

theorem Scans.proper {kept code : Text} {m : ScrubMode} (h : Scans mode s kept code m)
    (hmode : mode.Proper) : m.Proper := by
  induction h with
  | nil | heredoc | backslash => exact hmode
  | comment hends h ih => exact ih trivial
  | endsComment h ih | closes hq h ih | opensComment h ih => exact ih trivial
  | escaped h ih | quoted hc h ih => exact ih hmode
  | slashes | hash => trivial
  | opensHeredoc hlabel => exact proper_of_heredocLabel? hlabel
  | char hopens h ih => exact ih (proper_modeAfter _)

theorem proper_scan (h : mode.Proper) (keep : Bool) (line : Text) :
    (scan keep mode line).2.Proper := by
  rw [scan_mode]
  exact (scans mode line).proper h

theorem proper_scrub {s : Scrubber} (h : s.mode.Proper) (line : Text) :
    (s.scrub line).2.mode.Proper := by
  obtain ⟨keep, mode⟩ := s
  cases mode with
  | heredoc label =>
    simp only [scrub, scrubFrom]
    cases closeHeredoc? label line with
    | none => exact h
    | some rest => exact proper_scan (show ScrubMode.Proper .code from trivial) keep rest
  | code | comment | literal => exact proper_scan h keep line

theorem proper_after {s : Scrubber} (h : s.mode.Proper) (lines : List Text) :
    (s.after lines).mode.Proper := by
  induction lines generalizing s with
  | nil => exact h
  | cons line lines ih => exact ih (proper_scrub h line)

theorem trimStart_blank (s t : Text) :
    Text.trimStart (s ++ ' ' :: t) =
      if Text.trimStart s = [] then Text.trimStart t else Text.trimStart s ++ ' ' :: t := by
  split
  · rename_i hs
    have hblank : ∀ c ∈ s ++ [' '], Text.isBlank c = true :=
      List.forall_mem_append.mpr
        ⟨List.dropWhile_eq_nil_iff.mp hs, List.forall_mem_singleton.mpr (by decide)⟩
    simpa using Text.trimStart_append_of_blank hblank t
  · rename_i hs
    exact trimStart_comment hs _

/-- The label of a heredoc ends at a blank; blanks in front of it do not count. -/
theorem heredocLabel?_blank (s t : Text) :
    heredocLabel? (s ++ ' ' :: t) =
      if Text.trimStart s = [] then heredocLabel? t else heredocLabel? s := by
  have htake (u : Text) :
      (u ++ ' ' :: t).takeWhile Text.isIdentPart = u.takeWhile Text.isIdentPart := by
    rw [List.takeWhile_append]
    split
    · rename_i hall
      simp [show Text.isIdentPart ' ' = false from by decide,
        (List.takeWhile_prefix Text.isIdentPart).eq_of_length hall]
    · rfl
  have hquotes (u : Text) :
      ((u ++ ' ' :: t).dropWhile fun c => c == '\'' || c == '"').takeWhile Text.isIdentPart =
        (u.dropWhile fun c => c == '\'' || c == '"').takeWhile Text.isIdentPart := by
    rw [List.dropWhile_append]
    split
    · rename_i hall
      rw [List.isEmpty_iff.mp hall]
      simp [show Text.isIdentPart ' ' = false from by decide]
    · exact htake _
  split
  · rename_i hs
    rw [heredocLabel?, trimStart_blank, if_pos hs, heredocLabel?]
  · rename_i hs
    rw [heredocLabel?, trimStart_blank, if_neg hs, hquotes, heredocLabel?]

theorem scan_heredoc (label line : Text) :
    scan false (.heredoc label) line = ([], .heredoc label) := by
  cases line <;> simp [scan]

/-- The first text ends within the opening of a heredoc, whose label the second one has. -/
def LabelAcross (a b : Text) : Prop :=
  ∃ p q, a = p ++ "<<<".toList ++ q ∧ (∀ c ∈ q, Text.isBlank c = true) ∧
    (heredocLabel? b).isSome = true

theorem LabelAcross.cons {c : Char} (h : LabelAcross a b) : LabelAcross (c :: a) b := by
  obtain ⟨p, q, rfl, hq⟩ := h
  exact ⟨c :: p, q, rfl, hq⟩

/-- Without a label, what could have opened a heredoc leaves the scrubber in code. -/
theorem scan_angles (h : ∀ c ∈ s, Text.isBlank c = true) :
    (scan false .code ('<' :: '<' :: s)).2 = .code := by
  have hplain : ∀ c ∈ s, c ∉ ['/', '#', '<', '\'', '"', '`'] := fun c hc =>
    Text.not_mem_of_class (h c hc) (by decide)
  have hscan : (scan false .code s).2 = .code := by
    simpa [scan] using congrArg Prod.snd (scan_append_plain hplain false [])
  have hangle (r : Text) : s ≠ '<' :: r := by
    rintro rfl
    exact hplain '<' (by simp) (by simp)
  have hfirst : opensComment ('<' :: '<' :: s) = false := by simp [opensComment, hangle]
  have hsecond : opensComment ('<' :: s) = false := by simp [opensComment, hangle]
  rw [scan_code hfirst, show modeAfter '<' = .code from rfl, scan_code hsecond]
  exact hscan

/-- What the scrubber makes of a text with a blank and more behind it, as far as the text does
not end in a line comment: the result for the text, and that for the blank and the rest. -/
def ScansOn (b : Text) (tail : Lexer.Stream) (lexed : List (Text × Lexer.Mode))
    (first whole : Text × ScrubMode) : Prop :=
  lexed = Lexer.emit first.1 (Lexer.lex .lineComment tail) ∨
    whole = (first.1 ++ (scan false first.2 (' ' :: b)).1, (scan false first.2 (' ' :: b)).2)

theorem ScansOn.emit {tail : Lexer.Stream} {lexed : List (Text × Lexer.Mode)}
    {first whole : Text × ScrubMode} (h : ScansOn b tail lexed first whole) (out : Text) :
    ScansOn b tail (Lexer.emit out lexed) (out ++ first.1, first.2) (out ++ whole.1, whole.2) := by
  rcases h with rfl | rfl
  · exact .inl (Lexer.emit_emit out first.1 _)
  · exact .inr (by simp)

open Lexer in
theorem Scans.scansOn {kept code : Text} {m : ScrubMode} (h : Scans mode a kept code m)
    {tail : Stream} (htail : AtLineEnd tail) (hmode : mode.Proper)
    (hacross : m = .code → ¬ LabelAcross a b) :
    ScansOn b tail (lex (Mode.ofScrub mode) (a.map some ++ tail)) (code, m)
      (scan false mode (a ++ ' ' :: b)) := by
  induction h with
  | nil => exact .inr (by simp)
  | heredoc => exact .inr (by simp [scan_heredoc])
  | comment hends h ih =>
    simp only [List.map_cons, List.cons_append, Mode.ofScrub]
    rw [lex_blockComment_char htail hends,
      scan_comment_char (endsComment_append hends (by decide) b)]
    exact ih hmode fun hcode h => hacross hcode h.cons
  | endsComment h ih =>
    simp only [List.map_cons, List.cons_append, Mode.ofScrub, lex, scan]
    exact (ih trivial fun hcode h => hacross hcode h.cons.cons).emit [' ']
  | @backslash q =>
    have hblank : ' ' ≠ q := by
      rintro rfl
      simp [ScrubMode.Proper] at hmode
    exact .inr (by simp [scan, hblank])
  | escaped h ih =>
    simp only [List.map_cons, List.cons_append, Mode.ofScrub, lex, scan]
    exact ih hmode fun hcode h => hacross hcode h.cons.cons
  | quoted hc h ih =>
    simp only [List.map_cons, List.cons_append, Mode.ofScrub]
    rw [lex_string_char hc.2, if_neg hc.1, scan_literal_char hc.2, if_neg hc.1]
    exact ih hmode fun hcode h => hacross hcode h.cons
  | @closes q rest kept code m hq h ih =>
    simp only [List.map_cons, List.cons_append, Mode.ofScrub]
    rw [lex_string_char hq, if_pos rfl, scan_literal_char hq, if_pos rfl]
    exact (ih trivial fun hcode h => hacross hcode h.cons).emit [q]
  | slashes =>
    refine .inl ?_
    simp [Mode.ofScrub, lex, lex_lineComment_line]
  | hash hattribute =>
    refine .inl ?_
    simp only [List.map_cons, List.cons_append, Mode.ofScrub]
    rw [lex_hash htail hattribute, lex_lineComment_line, emit_nil]
  | opensComment h ih =>
    simp only [List.map_cons, List.cons_append, Mode.ofScrub, lex, scan]
    exact ih trivial fun hcode h => hacross hcode h.cons.cons
  | @opensHeredoc rest label hlabel =>
    refine .inr ?_
    have hblank : Text.trimStart rest ≠ [] := by
      intro hnil
      simp [heredocLabel?, hnil] at hlabel
    simp [scan, heredocLabel?_blank, hblank, hlabel]
  | @char c rest kept code m hopens h ih =>
    have hlabel : ∀ more, c :: rest = '<' :: '<' :: '<' :: more → heredocLabel? more = none →
        heredocLabel? (more ++ ' ' :: b) = none := by
      intro more hmore hnone
      obtain ⟨rfl, rfl⟩ := List.cons.inj hmore
      rw [heredocLabel?_blank]
      split
      · rename_i hblank
        have hblanks := List.dropWhile_eq_nil_iff.mp hblank
        by_contra hsome
        have hcode : m = .code := by
          rw [← scan_angles hblanks]
          exact (congrArg Prod.snd (h.scan_eq false)).symm
        exact hacross hcode ⟨[], more, rfl, hblanks, Option.isSome_iff_ne_none.mpr hsome⟩
      · exact hnone
    simp only [List.map_cons, List.cons_append, Mode.ofScrub]
    rw [lex_code_char htail hopens, scan_code (opensComment_append hopens (by decide) hlabel)]
    exact (ih (proper_modeAfter c) fun hcode h => hacross hcode h.cons).emit [c]

/-- The text ends in a quote. -/
def EndsInQuote (s : Text) : Prop := ∃ front, ∃ q ∈ ['\'', '"', '`'], s = front ++ [q]

theorem EndsInQuote.append (h : EndsInQuote s) (front : Text) : EndsInQuote (front ++ s) := by
  obtain ⟨more, q, hq, rfl⟩ := h
  exact ⟨front ++ more, q, hq, (List.append_assoc ..).symm⟩

/-- A line that ends inside a literal ends in the code with the quote that opens the literal,
unless it lies inside the literal altogether. -/
theorem Scans.endsInQuote {kept code : Text} {m : ScrubMode} (h : Scans mode a kept code m)
    (hcode : m ≠ .code) (hcomment : m ≠ .comment) : m = mode ∧ code = [] ∨ EndsInQuote code := by
  induction h with
  | nil | heredoc | backslash => exact .inl ⟨rfl, rfl⟩
  | comment hends h ih | escaped h ih | quoted hc h ih => exact ih hcode hcomment
  | endsComment h ih =>
    exact .inr (((ih hcode hcomment).resolve_left fun h => hcode h.1).append [' '])
  | @closes q rest kept code m hq h ih =>
    exact .inr (((ih hcode hcomment).resolve_left fun h => hcode h.1).append [q])
  | slashes | hash => exact absurd rfl hcode
  | opensComment h ih => exact .inr ((ih hcode hcomment).resolve_left fun h => hcomment h.1)
  | opensHeredoc => exact .inr ⟨['"'], '"', by simp, rfl⟩
  | @char c rest kept code m hopens h ih =>
    refine .inr ?_
    rcases ih hcode hcomment with ⟨rfl, rfl⟩ | hquote
    · refine ⟨[], c, ?_, rfl⟩
      by_contra hc
      refine hcode (if_neg ?_)
      simpa using hc
    · exact hquote.append [c]

/-- What stands in for a line break between the code in front of it and that behind it. -/
def Seam (p glue : Text) : Prop := glue = [' '] ∨ glue = [] ∧ (p = [] ∨ EndsInQuote p)

/-- Where no comment is left, a line with a blank in front of it is the line itself. -/
theorem scan_blank (hmode : mode.Proper) (hcomment : mode ≠ .comment)
    (hlabel : ∀ label, mode = .heredoc label → closeHeredoc? label b = none) :
    scan false mode (' ' :: b) =
      ((if mode = .code then [' '] else []) ++ (scrubFrom false mode b).1,
        (scrubFrom false mode b).2) := by
  cases mode with
  | code => simp [scrubFrom, scan]
  | comment => exact absurd rfl hcomment
  | literal q =>
    have hblank : ' ' ≠ q := by
      rintro rfl
      simp [ScrubMode.Proper] at hmode
    simp [scrubFrom, scan, hblank]
  | heredoc label => simp [scrubFrom, scan_heredoc, hlabel label rfl]

open Lexer in
theorem closeHeredoc?_of_closing? (h : closing? label (b.map some) = none) :
    closeHeredoc? label b = none := by
  have hline := closing?_line atLineEnd_nil label b
  rw [List.append_nil, h, eq_comm, Option.map_eq_none_iff] at hline
  exact hline

open Lexer in
/-- The first part of a line leads to a mode of the lexer in which a blank can stand for a
line break. -/
theorem scan_break {m : Mode} {p : Text} (hmode : mode.Proper)
    (hlex : lex (Mode.ofScrub mode) (a.map some) = [(p, m)]) (hline : m ≠ .lineComment)
    (hblock : m ≠ .blockComment) (hacross : m = .code → ¬ LabelAcross a b)
    (hlabel : ∀ label, m = .heredoc label → closing? label (b.map some) = none) :
    ∃ glue, Seam (scan false mode a).1 glue ∧
      scan false mode (a ++ ' ' :: b) =
        ((scan false mode a).1 ++ glue ++ (scrubFrom false (scan false mode a).2 b).1,
          (scrubFrom false (scan false mode a).2 b).2) := by
  obtain ⟨atEnd, hcarried, hagrees⟩ := agrees_lex_scan atLineEnd_nil mode a
  rw [List.append_nil, hlex, lex] at hagrees
  obtain ⟨rfl, rfl⟩ : p = (scan false mode a).1 ∧ m = atEnd := by
    simpa [emit] using hagrees
  have hcode : (scan false mode a).2 = .code → m = .code := by
    rw [← hcarried]
    cases m <;> simp [Mode.carried] at hline ⊢
  have hcomment : (scan false mode a).2 ≠ .comment := by
    rw [← hcarried]
    cases m <;> simp [Mode.carried] at hblock ⊢
  have hheredoc (label : Text) (h : (scan false mode a).2 = .heredoc label) :
      closeHeredoc? label b = none := by
    rw [← hcarried] at h
    refine closeHeredoc?_of_closing? (hlabel label ?_)
    cases m <;> simp [Mode.carried] at h ⊢
    exact h
  have hscan := (scans mode a).scansOn atLineEnd_nil hmode fun h => hacross (hcode h)
  rw [List.append_nil, hlex, ScansOn] at hscan
  have hwhole := hscan.resolve_left (by simpa [lex, emit] using hline)
  rw [scan_blank (proper_scan hmode false a) hcomment hheredoc] at hwhole
  refine ⟨_, ?_, hwhole.trans (by rw [List.append_assoc])⟩
  split
  · exact .inl rfl
  · rename_i hliteral
    exact .inr ⟨rfl, ((scans mode a).endsInQuote hliteral hcomment).imp_left And.right⟩

theorem closeHeredoc?_eq_some_iff {line : Text} :
    closeHeredoc? label line = some rest ↔
      Text.trimStart line = label ++ rest ∧ ∀ c ∈ rest.head?, Text.isIdentPart c = false := by
  rw [closeHeredoc?, ← Text.strip?_eq_some_iff]
  cases hstrip : Text.strip? label (Text.trimStart line) with
  | none => simp
  | some r =>
    cases r with
    | nil =>
      simp only [Option.some.injEq, iff_self_and]
      rintro rfl
      simp
    | cons c more =>
      by_cases hc : Text.isIdentPart c = true
      · simp only [if_pos hc, reduceCtorEq, Option.some.injEq, false_iff, not_and]
        rintro rfl
        simp [hc]
      · simp only [if_neg hc, Option.some.injEq, iff_self_and]
        rintro rfl
        simpa using hc

/-- The label that closes a heredoc ends at a blank; blanks in front of it do not count. -/
theorem closeHeredoc?_blank (hlabel : (ScrubMode.heredoc label).Proper) (a b : Text) :
    closeHeredoc? label (a ++ ' ' :: b) =
      if Text.trimStart a = [] then closeHeredoc? label b
      else (closeHeredoc? label a).map (· ++ ' ' :: b) := by
  have hblank : Text.isIdentPart ' ' = false := by decide
  split
  · rename_i hnil
    rw [closeHeredoc?, trimStart_blank, if_pos hnil, closeHeredoc?]
  · rename_i hstart
    ext rest
    rw [Option.map_eq_some_iff, closeHeredoc?_eq_some_iff, trimStart_blank, if_neg hstart]
    simp only [closeHeredoc?_eq_some_iff]
    constructor
    · rintro ⟨happend, hrest⟩
      rcases List.append_eq_append_iff.mp happend with ⟨more, hmore, hb⟩ | ⟨r, hr, rfl⟩
      · -- A blank in the label would be a name character.
        cases more with
        | nil => exact ⟨[], ⟨by simpa using hmore.symm, by simp⟩, hb⟩
        | cons c more =>
          obtain rfl := (List.cons.inj hb).1
          exact absurd (hlabel.2 ' ' (by simp [hmore])) (by simp [hblank])
      · refine ⟨r, ⟨hr, fun c hc => hrest c ?_⟩, rfl⟩
        rw [List.head?_append, Option.mem_def.mp hc]
        rfl
    · rintro ⟨r, ⟨hr, hhead⟩, rfl⟩
      refine ⟨by rw [hr, List.append_assoc], fun c hc => ?_⟩
      cases r with
      | nil =>
        obtain rfl := Option.some.inj hc
        exact hblank
      | cons d r => exact hhead c hc

theorem LabelAcross.append (h : LabelAcross a b) (front : Text) : LabelAcross (front ++ a) b := by
  obtain ⟨p, q, rfl, hq⟩ := h
  exact ⟨front ++ p, q, by simp, hq⟩

/-- Behind the label that closes a heredoc stands a pair of quotes. -/
theorem Seam.closing {p glue : Text} (h : Seam p glue) : Seam (['"', '"'] ++ p) glue := by
  rcases h with hglue | ⟨hglue, rfl | hquote⟩
  · exact .inl hglue
  · exact .inr ⟨hglue, .inr ⟨['"'], '"', by simp, rfl⟩⟩
  · exact .inr ⟨hglue, .inr (hquote.append _)⟩

open Lexer in
theorem lexLines_of_not_heredoc {start : Mode} (h : start.carried.isHeredoc = false)
    (stream : Stream) : lexLines start stream = lex (Mode.ofScrub start.carried) stream := by
  cases start with
  | heredoc label => cases h
  | code | lineComment | blockComment | string =>
    simp only [lexLines, resume, emit_nil]
    rfl

open Lexer in
theorem of_emit_singleton {out p : Text} {lines : List (Text × Mode)} {m : Mode}
    (h : emit out lines = [(p, m)]) : ∃ p', lines = [(p', m)] := by
  cases lines with
  | nil => cases h
  | cons line lines =>
    obtain ⟨hline, rfl⟩ := List.cons.inj h
    exact ⟨line.1, by rw [← (Prod.mk.inj hline).2]⟩

open Lexer in
/-- The same from the start of a line. -/
theorem scrub_break {s : Scrubber} {start m : Mode} {p : Text} (hkeep : s.keepLiterals = false)
    (hproper : s.mode.Proper) (hstart : start.carried = s.mode)
    (hlex : lexLines start (a.map some) = [(p, m)]) (hline : m ≠ .lineComment)
    (hblock : m ≠ .blockComment) (hacross : m = .code → ¬ LabelAcross a b)
    (hlabel : ∀ label, m = .heredoc label → closing? label (b.map some) = none) :
    ∃ glue, Seam (s.scrub a).1 glue ∧
      s.scrub (a ++ ' ' :: b) =
        ((s.scrub a).1 ++ glue ++ ((s.scrub a).2.scrub b).1, ((s.scrub a).2.scrub b).2) := by
  obtain ⟨keep, mode⟩ := s
  obtain rfl : keep = false := hkeep
  obtain rfl : start.carried = mode := hstart
  by_cases hheredoc : start.carried.isHeredoc = false
  · rw [lexLines_of_not_heredoc hheredoc] at hlex
    obtain ⟨glue, hseam, hscan⟩ := scan_break hproper hlex hline hblock hacross hlabel
    refine ⟨glue, ?_, ?_⟩
    · simpa [scrub, scrubFrom_of_not_heredoc hheredoc] using hseam
    · simp [scrub, scrubFrom_of_not_heredoc hheredoc, hscan]
  · obtain ⟨label, rfl⟩ : ∃ label, start = .heredoc label := by
      cases start <;> simp [Mode.carried, ScrubMode.isHeredoc] at hheredoc ⊢
    have hclosing := closing?_line atLineEnd_nil label a
    rw [List.append_nil] at hclosing
    have hwhole := closeHeredoc?_blank hproper a b
    cases hclose : closeHeredoc? label a with
    | none =>
      simp only [lexLines, resume, hclosing, hclose, Option.map_none, emit_nil] at hlex
      have hheredoc : m = .heredoc label := by
        have hend := lex_heredoc_line label a []
        rw [List.append_nil, hlex, lex] at hend
        simpa using (congrArg (List.map Prod.snd) hend)
      have hb := closeHeredoc?_of_closing? (hlabel label hheredoc)
      have hnone : closeHeredoc? label (a ++ ' ' :: b) = none := by
        rw [hwhole, hb, hclose]
        simp
      refine ⟨[], .inr ⟨rfl, .inl ?_⟩, ?_⟩
      · simp [scrub, scrubFrom, Mode.carried, hclose]
      · simp [scrub, scrubFrom, Mode.carried, hclose, hnone, hb]
    | some rest =>
      obtain ⟨htrim, -⟩ := closeHeredoc?_eq_some_iff.mp hclose
      have hsplit : a = a.takeWhile Text.isBlank ++ label ++ rest := by
        rw [List.append_assoc, ← htrim, Text.trimStart, List.takeWhile_append_dropWhile]
      have hstart : Text.trimStart a ≠ [] := by
        rw [htrim]
        exact fun h => hproper.1 (List.append_eq_nil_iff.mp h).1
      simp only [lexLines, resume, hclosing, hclose, Option.map_some, List.append_nil] at hlex
      obtain ⟨p', hlex'⟩ := of_emit_singleton hlex
      obtain ⟨glue, hseam, hscan⟩ := scan_break (show ScrubMode.Proper .code from trivial) hlex'
        hline hblock (fun hm h => hacross hm (hsplit ▸ h.append _)) hlabel
      rw [if_neg hstart, hclose, Option.map_some] at hwhole
      refine ⟨glue, ?_, ?_⟩
      · simpa [scrub, scrubFrom, Mode.carried, hclose] using hseam.closing
      · simp [scrub, scrubFrom, Mode.carried, hclose, hwhole, hscan]

end Scrubber

namespace Lexer

/-- The mode at the end of the lines of a file. -/
def modeBehind (lines : List Text) : Mode :=
  ((lex .code (joined lines)).getLast?.map Prod.snd).getD .code

theorem joined_append (line : Text) {rest : List Text} (h : rest ≠ []) :
    joined (line :: rest) = line.map some ++ none :: joined rest := by
  obtain ⟨next, more, rfl⟩ := List.exists_cons_of_ne_nil h
  rfl

/-- The last line of a file is read from the mode that the scrubber carries to it. -/
theorem lexLines_concat (start : Mode) {s : Scrubber} (hkeep : s.keepLiterals = false)
    (hstart : start.carried = s.mode) (front : List Text) (a : Text) :
    ∃ m atEnd p, m.carried = (s.after front).mode ∧ lexLines m (a.map some) = [(p, atEnd)] ∧
      (lexLines start (joined (front ++ [a]))).getLast? = some (p, atEnd) := by
  induction front generalizing start s with
  | nil =>
    obtain ⟨atEnd, -, hagrees⟩ := agrees_lexLines atLineEnd_nil start a
    rw [List.append_nil, lex, emit] at hagrees
    refine ⟨start, atEnd, _, hstart, hagrees, ?_⟩
    rw [List.nil_append, joined, hagrees]
    rfl
  | cons line front ih =>
    obtain ⟨next, hnext, hagrees⟩ :=
      agrees_lexLines (atLineEnd_newline (joined (front ++ [a]))) start line
    have hcarried : next.carried = (s.scrub line).2.mode := by
      rw [hnext, hstart, Scrubber.scrub, hkeep]
    obtain ⟨m, atEnd, p, hm, hlast, hwhole⟩ := ih next (s := (s.scrub line).2) hkeep hcarried
    refine ⟨m, atEnd, p, hm, hlast, ?_⟩
    rw [List.cons_append, joined_append line (by simp), hagrees, lex_newline, emit,
      List.getLast?_cons, hwhole]
    rfl

/-- A blank can stand for the break between two lines: the first one does not end in a comment,
the second one does not have the label of a heredoc that the first one has begun to open, and
it does not close a heredoc that is open. -/
structure Joinable (front : List Text) (a b : Text) : Prop where
  lineComment : modeBehind (front ++ [a]) ≠ .lineComment
  blockComment : modeBehind (front ++ [a]) ≠ .blockComment
  label : modeBehind (front ++ [a]) = .code → ¬ Scrubber.LabelAcross a b
  closing : ∀ label, modeBehind (front ++ [a]) = .heredoc label →
    closing? label (b.map some) = none

/-- In code, all that matters is that the blank does not lead to the label of a heredoc. -/
theorem Joinable.of_code {front : List Text} {a b : Text}
    (hcode : modeBehind (front ++ [a]) = .code) (hlabel : ¬ Scrubber.LabelAcross a b) :
    Joinable front a b where
  lineComment := by simp [hcode]
  blockComment := by simp [hcode]
  label _ := hlabel
  closing := by simp [hcode]

/-- The code of lines of which one is cut in two, and the code of the lines uncut. -/
theorem Joinable.codes {front : List Text} {a b : Text} (h : Joinable front a b)
    (back : List Text) :
    ∃ first p glue q rest, first.length = front.length ∧ Scrubber.Seam p glue ∧
      codeLines (front ++ (a ++ ' ' :: b) :: back) = first ++ (p ++ glue ++ q) :: rest ∧
      codeLines (front ++ a :: b :: back) = first ++ p :: q :: rest := by
  obtain ⟨m, atEnd, p, hm, hlast, hwhole⟩ :=
    lexLines_concat .code (s := {}) rfl rfl front a
  have hmode : modeBehind (front ++ [a]) = atEnd := by
    rw [lexLines_code] at hwhole
    rw [modeBehind, hwhole]
    rfl
  obtain ⟨hline, hblock, hlabel, hclosing⟩ := h
  rw [hmode] at hline hblock hlabel hclosing
  have hproper : (({} : Scrubber).after front).mode.Proper :=
    Scrubber.proper_after (s := {}) trivial front
  obtain ⟨glue, hseam, hscrub⟩ := Scrubber.scrub_break (Scrubber.after_keepLiterals {} front)
    hproper hm hlast hline hblock hlabel hclosing
  have hcodes (rest : List Text) : codeLines (front ++ rest) =
      Scrubber.codes {} front ++ (({} : Scrubber).after front).codes rest :=
    Scrubber.codes_append {} front rest
  rw [hcodes, hcodes, Scrubber.codes_cons, Scrubber.codes_cons, Scrubber.codes_cons, hscrub]
  exact ⟨_, _, glue, _, _, Scrubber.codes_length {} front, hseam, rfl, rfl⟩

end Lexer

end PhpLint
