import Mathlib.Algebra.Ring.Int.Defs
import PhpLint.Code.Bracket
import PhpLint.Proofs.Code.Scans

/-!
A scrubber fed line after line. What it returns, and the mode in which it ends,
split where the lines are split. Braces are counted in what it returns; the count
is additive and blind to white space at the ends of a text.
-/

namespace PhpLint

namespace Scrubber

def after (s : Scrubber) (lines : List Text) : Scrubber :=
  lines.foldl (fun s line => (s.scrub line).2) s

def codes (s : Scrubber) (lines : List Text) : List Text :=
  (s.scrubAll lines).map Prod.fst

@[simp] theorem after_nil (s : Scrubber) : s.after [] = s := rfl

@[simp] theorem after_cons (s : Scrubber) (line : Text) (lines : List Text) :
    s.after (line :: lines) = (s.scrub line).2.after lines := rfl

theorem after_append (s : Scrubber) (first second : List Text) :
    s.after (first ++ second) = (s.after first).after second := by
  simp [after]

@[simp] theorem codes_nil (s : Scrubber) : s.codes [] = [] := rfl

@[simp] theorem codes_cons (s : Scrubber) (line : Text) (lines : List Text) :
    s.codes (line :: lines) = (s.scrub line).1 :: (s.scrub line).2.codes lines := rfl

theorem codes_append (s : Scrubber) (first second : List Text) :
    s.codes (first ++ second) = s.codes first ++ (s.after first).codes second := by
  induction first generalizing s with
  | nil => rfl
  | cons line first ih => simp [ih]

@[simp] theorem scrubAll_length (s : Scrubber) (lines : List Text) :
    (s.scrubAll lines).length = lines.length := by
  induction lines generalizing s with
  | nil => rfl
  | cons line lines ih => simp [scrubAll, ih]

@[simp] theorem codes_length (s : Scrubber) (lines : List Text) :
    (s.codes lines).length = lines.length := by
  simp [codes]

theorem scrub_keepLiterals (s : Scrubber) (line : Text) :
    (s.scrub line).2.keepLiterals = s.keepLiterals := rfl

theorem after_keepLiterals (s : Scrubber) (lines : List Text) :
    (s.after lines).keepLiterals = s.keepLiterals := by
  induction lines generalizing s with
  | nil => rfl
  | cons line lines ih => rw [after_cons, ih, scrub_keepLiterals]

/-- A scrubber of code that is neither in a comment nor in a literal cannot be
told from a fresh one. -/
theorem eq_fresh {s : Scrubber} (hkeep : s.keepLiterals = false)
    (hplain : (s.inComment || s.inLiteral) = false) : s = {} := by
  obtain ⟨keep, mode⟩ := s
  cases mode <;> simp_all [inComment, inLiteral]

/-- A character at which nothing opens is code. -/
theorem scan_code_cons {c : Char} (hc : c ∉ ['/', '#', '<', '\'', '"', '`']) (keep : Bool)
    (line : Text) :
    scan keep .code (c :: line) = (c :: (scan keep .code line).1, (scan keep .code line).2) := by
  simp only [List.mem_cons, List.not_mem_nil, or_false, not_or] at hc
  have hmode : modeAfter c = .code := by simp [modeAfter, hc]
  rw [scan_code (by simp [opensComment, hc]), hmode]

/-- A text at which nothing opens is kept, and what stands behind it is read as code. -/
theorem scan_append_plain {s : Text} (hs : ∀ c ∈ s, c ∉ ['/', '#', '<', '\'', '"', '`'])
    (keep : Bool) (t : Text) :
    scan keep .code (s ++ t) = (s ++ (scan keep .code t).1, (scan keep .code t).2) := by
  induction s with
  | nil => rfl
  | cons c s ih =>
    rw [List.forall_mem_cons] at hs
    rw [List.cons_append, scan_code_cons hs.1, ih hs.2, List.cons_append]

/-- Whether literals are kept has no influence on where they end. -/
theorem scan_mode (keep : Bool) (mode : ScrubMode) (line : Text) :
    (scan keep mode line).2 = (scan false mode line).2 := by
  rw [(scans mode line).scan_eq keep]

/-- The same scrubber, but one that keeps literals. -/
def keeping (s : Scrubber) : Scrubber := { s with keepLiterals := true }

theorem scrub_keeping {s : Scrubber} (hkeep : s.keepLiterals = false) (line : Text) :
    (s.keeping.scrub line).2 = (s.scrub line).2.keeping := by
  obtain ⟨keep, mode⟩ := s
  obtain rfl := hkeep
  cases mode with
  | heredoc label =>
    simp only [scrub, scrubFrom, keeping]
    cases closeHeredoc? label line with
    | none => rfl
    | some rest => simp [scan_mode true]
  | code | comment | literal => simp [scrub, scrubFrom, keeping, scan_mode true]

theorem after_keeping {s : Scrubber} (hkeep : s.keepLiterals = false) (lines : List Text) :
    s.keeping.after lines = (s.after lines).keeping := by
  induction lines generalizing s with
  | nil => rfl
  | cons line lines ih =>
    rw [after_cons, after_cons, scrub_keeping hkeep]
    exact ih hkeep

end Scrubber

namespace Text

/-- Trimming removes white space only, so every other character keeps its count. -/
theorem count_trim {c : Char} (hc : isBlank c = false) (s : Text) :
    (trim s).count c = s.count c := by
  have hstart (t : Text) : (t.dropWhile isBlank).count c = t.count c := by
    have hsplit := congrArg (List.count c) (List.takeWhile_append_dropWhile (p := isBlank) (l := t))
    have hnone : (t.takeWhile isBlank).count c = 0 := by
      rw [List.count_eq_zero]
      intro hmem
      have hblank := List.all_eq_true.mp List.all_takeWhile c hmem
      simp [hc] at hblank
    rw [List.count_append, hnone, Nat.zero_add] at hsplit
    exact hsplit
  simp [trim, trimEnd, dropEndWhile, trimStart, hstart]

end Text

namespace Code

theorem braceDelta_eq_count (s : Text) :
    braceDelta s = (s.count '{' : Int) - (s.count '}' : Int) := by
  induction s with
  | nil => rfl
  | cons c s ih =>
    by_cases hopen : c = '{'
    · subst hopen
      simp [braceDelta, ih]
      omega
    · by_cases hclose : c = '}'
      · subst hclose
        simp [braceDelta, ih]
        omega
      · simp [braceDelta, ih, hopen, hclose]

theorem braceDelta_of_not_mem {s : Text} (hopen : '\x7b' ∉ s) (hclose : '\x7d' ∉ s) :
    braceDelta s = 0 := by
  rw [braceDelta_eq_count, List.count_eq_zero_of_not_mem hopen,
    List.count_eq_zero_of_not_mem hclose]
  rfl

theorem braceDelta_append (s t : Text) : braceDelta (s ++ t) = braceDelta s + braceDelta t := by
  simp only [braceDelta_eq_count, List.count_append]
  omega

theorem braceDelta_flatten (parts : List Text) :
    braceDelta parts.flatten = (parts.map braceDelta).sum := by
  induction parts with
  | nil => rfl
  | cons part parts ih => simp [braceDelta_append, ih]

@[simp] theorem braceDelta_trim (s : Text) : braceDelta (Text.trim s) = braceDelta s := by
  rw [braceDelta_eq_count, braceDelta_eq_count, Text.count_trim (by decide),
    Text.count_trim (by decide)]

end Code

end PhpLint
