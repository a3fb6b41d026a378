import PhpLint.Proofs.Code.LineComment

/-!
A scrubber that keeps literals beside one that drops them, both fed the same lines. They
are in the same mode all the time, so their results can be paired line by line; and but
for heredocs, what is dropped is the contents of the strings and nothing else.
-/

namespace PhpLint

namespace ScrubMode

/-- The quote of the string that is open. -/
def quote? : ScrubMode → Option Char
  | .literal q => some q
  | _ => none

def isHeredoc : ScrubMode → Bool
  | .heredoc _ => true
  | _ => false

end ScrubMode

namespace Scrubber

/-- Deletes what stands between quotes, where a backslash hides the next character. The
text starts inside the quote that is given. -/
def withoutQuoted : (quote : Option Char) → Text → Text
  | _, [] => []
  | none, c :: s =>
    c :: withoutQuoted (if c = '\'' ∨ c = '"' ∨ c = '`' then some c else none) s
  | some _, ['\\'] => []
  | some q, '\\' :: _ :: s => withoutQuoted (some q) s
  | some q, c :: s => if c = q then c :: withoutQuoted none s else withoutQuoted (some q) s

theorem withoutQuoted_char {q c : Char} (hc : c ≠ '\\') (s : Text) :
    withoutQuoted (some q) (c :: s) =
      if c = q then c :: withoutQuoted none s else withoutQuoted (some q) s := by
  rw [withoutQuoted]
  · exact fun h _ => hc h
  · exact fun _ _ h _ => hc h

/-- As far as no heredoc opens, a line without literals is the line with literals, less
what stands between quotes. -/
theorem Scans.code_eq {mode m : ScrubMode} {line kept code : Text}
    (h : Scans mode line kept code m) (hend : m.isHeredoc = false) :
    code = withoutQuoted mode.quote? kept := by
  induction h with
  | nil => simp [withoutQuoted]
  | heredoc | opensHeredoc => cases hend
  | comment hends h ih => exact ih hend
  | endsComment h ih => simp [withoutQuoted, ScrubMode.quote?, ih hend]
  | backslash => simp [withoutQuoted, ScrubMode.quote?]
  | escaped h ih => simp [withoutQuoted, ScrubMode.quote?, ih hend]
  | quoted hc h ih =>
    rw [ScrubMode.quote?, withoutQuoted_char hc.2, if_neg hc.1]
    exact ih hend
  | closes hq h ih =>
    rw [ScrubMode.quote?, withoutQuoted_char hq, if_pos rfl, ih hend]
    rfl
  | slashes | hash => simp [withoutQuoted]
  | opensComment h ih => exact ih hend
  | @char c rest kept code m hopens h ih =>
    have hquote : (modeAfter c).quote? = if c = '\'' ∨ c = '"' ∨ c = '`' then some c else none := by
      unfold modeAfter
      split <;> rfl
    rw [ih hend, hquote]
    simp [withoutQuoted, ScrubMode.quote?]

theorem scrubFrom_of_not_heredoc {mode : ScrubMode} (h : mode.isHeredoc = false) (keep : Bool)
    (line : Text) : scrubFrom keep mode line = scan keep mode line := by
  cases mode with
  | heredoc label => cases h
  | code | comment | literal => rfl

theorem scrub_false_eq {s : Scrubber} (hkeep : s.keepLiterals = false) {line : Text}
    (hstart : s.mode.isHeredoc = false) (hend : (s.scrub line).2.mode.isHeredoc = false) :
    (s.scrub line).1 = withoutQuoted s.mode.quote? (s.keeping.scrub line).1 := by
  obtain ⟨keep, mode⟩ := s
  obtain rfl : keep = false := hkeep
  simp only [scrub, keeping, scrubFrom_of_not_heredoc hstart] at hend ⊢
  exact (scans mode line).code_eq hend

/-- What is returned for a line depends on the lines in front of it. -/
theorem codes_getElem? (s : Scrubber) (lines : List Text) (n : Nat) :
    (s.codes lines)[n]? = lines[n]?.map fun line => ((s.after (lines.take n)).scrub line).1 := by
  induction lines generalizing s n with
  | nil => simp
  | cons line lines ih =>
    cases n with
    | zero => simp
    | succ n => simp [ih]

/-- After every number of lines the two scrubbers are in the same mode. On a line on which
no heredoc opens, goes on or ends, the scrubber that drops literals returns what the other
one returns, less what stands between quotes. -/
theorem literals_kept_in_step (lines : List Text) :
    (∀ n, (({} : Scrubber).after (lines.take n)).mode =
      (({ keepLiterals := true } : Scrubber).after (lines.take n)).mode) ∧
    ∀ n kept, (commentFreeLines lines)[n]? = some kept →
      (({} : Scrubber).after (lines.take n)).mode.isHeredoc = false →
      (({} : Scrubber).after (lines.take (n + 1))).mode.isHeredoc = false →
        (codeLines lines)[n]? = some
          (withoutQuoted (({} : Scrubber).after (lines.take n)).mode.quote? kept) := by
  have hkeeping (before : List Text) : ({ keepLiterals := true } : Scrubber).after before =
      (({} : Scrubber).after before).keeping := after_keeping (s := {}) rfl before
  refine ⟨fun n => by rw [hkeeping]; rfl, fun n kept hkept hstart hend => ?_⟩
  have hcode : (codeLines lines)[n]? = _ := codes_getElem? {} lines n
  have hfree : (commentFreeLines lines)[n]? = _ := codes_getElem? { keepLiterals := true } lines n
  rw [hkept, eq_comm, Option.map_eq_some_iff] at hfree
  obtain ⟨line, hline, rfl⟩ := hfree
  rw [List.take_add_one, hline, Option.toList_some, after_append] at hend
  have hkeep := after_keepLiterals {} (lines.take n)
  rw [hline, Option.map_some, scrub_false_eq hkeep hstart hend, ← hkeeping] at hcode
  exact hcode

/-- The second line starts inside a string and hides a quote of its own kind. -/
def quotedLines : List Text := ["f(\"\x7b", "\\\"\x7d\", '\"'); // \""].map String.toList

theorem literals_kept_in_step_quoted :
    (commentFreeLines quotedLines)[1]? = some "\\\"\x7d\", '\"'); ".toList ∧
      (codeLines quotedLines)[1]? =
        some (withoutQuoted (some '"') "\\\"\x7d\", '\"'); ".toList) ∧
      withoutQuoted (some '"') "\\\"\x7d\", '\"'); ".toList = "\", ''); ".toList := by
  have hkept : (commentFreeLines quotedLines)[1]? = some "\\\"\x7d\", '\"'); ".toList := by
    decide
  obtain ⟨-, hstep⟩ := literals_kept_in_step quotedLines
  exact ⟨hkept, hstep 1 _ hkept (by decide) (by decide), by decide⟩

end Scrubber

end PhpLint
