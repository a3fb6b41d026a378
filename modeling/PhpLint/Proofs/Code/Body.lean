import PhpLint.Code.Body
import PhpLint.Proofs.Code.Scrubber

/-!
The scan for the end of a body. While it goes on, its depth is the brace count of
the code that it has passed, and once a brace is open the depth stays positive. So
the scan is over before the braces behind a declaration run below zero, unless
the code closes a brace before it opens one.
-/

namespace PhpLint.Body

/-- Whether a closing brace comes before the brace that opens a body, and before the
semicolon that ends a declaration without one. The number is that of the
parentheses that are open. -/
def closesEarly (parens : Int) : Text → Bool
  | [] => false
  | c :: s =>
    if c = '{' ∨ (c = ';' ∧ parens ≤ 0) then false
    else if c = '}' then true
    else closesEarly (if c = '(' then parens + 1 else if c = ')' then parens - 1 else parens) s

/-- The counters fit the code that is to come: a body that has been opened is still
open, and one that has not been opened is not closed first. -/
def Counters.Fits (k : Counters) (rest : Text) : Prop :=
  if k.opened then 1 ≤ k.depth else k.depth = 0 ∧ closesEarly k.parens rest = false

theorem Counters.Fits.depth_nonneg {k : Counters} {rest : Text} (h : k.Fits rest) :
    0 ≤ k.depth := by
  unfold Counters.Fits at h
  split at h <;> omega

/-- A character that does not end the scan leaves counters that fit, and moves the
depth by its own brace. -/
theorem Counters.Fits.step {k : Counters} {c : Char} {rest : Text} (h : k.Fits (c :: rest))
    (hsemicolon : ¬ (c = ';' ∧ k.opened = false ∧ k.parens ≤ 0))
    (hbrace : ¬ (c = '}' ∧ k.opened = true ∧ k.depth = 1)) :
    (k.step c).Fits rest ∧ (k.step c).depth = k.depth + Code.braceDelta [c] := by
  obtain ⟨depth, parens, opened⟩ := k
  unfold Counters.Fits at h
  unfold Counters.step
  cases opened with
  | true =>
    simp only [if_true] at h
    split
    all_goals simp_all [Counters.Fits, Code.braceDelta]
    all_goals omega
  | false =>
    simp only [Bool.false_eq_true, if_false, closesEarly] at h
    obtain ⟨hdepth, hearly⟩ := h
    split
    all_goals simp_all [Counters.Fits, Code.braceDelta]
    exact hearly (Decidable.not_or_of_imp hsemicolon)

theorem LineResult.keep_eq_more {c : Char} {result : LineResult} {k : Counters} {text : Text}
    (h : result.keep c = .more k text) : ∃ text', result = .more k text' := by
  cases result with
  | bodyless => simp [LineResult.keep] at h
  | closed inner => simp [LineResult.keep] at h
  | more k' inner =>
    simp only [LineResult.keep, LineResult.more.injEq] at h
    exact ⟨inner, by rw [h.1]⟩

/-- A scan that goes on after a line has counted the braces of the line. -/
theorem scanLine_more {k k' : Counters} {code text rest : Text}
    (h : scanLine k code = .more k' text) (hfits : k.Fits (code ++ rest)) :
    k'.Fits rest ∧ k'.depth = k.depth + Code.braceDelta code := by
  induction code generalizing k text with
  | nil =>
    simp only [scanLine, LineResult.more.injEq] at h
    obtain ⟨rfl, -⟩ := h
    exact ⟨hfits, by simp [Code.braceDelta]⟩
  | cons c code ih =>
    rw [scanLine] at h
    split at h
    · simp at h
    · rename_i hsemicolon
      split at h
      · simp at h
      · rename_i hbrace
        obtain ⟨hnext, hdepth⟩ := hfits.step hsemicolon hbrace
        have hmore : ∃ text', scanLine (k.step c) code = .more k' text' := by
          simp only at h
          split at h
          · exact LineResult.keep_eq_more h
          · exact ⟨text, h⟩
        obtain ⟨text', hmore⟩ := hmore
        obtain ⟨hfits', hdepth'⟩ := ih hmore hnext
        refine ⟨hfits', ?_⟩
        rw [hdepth', hdepth, Code.braceDelta, Code.braceDelta, Code.braceDelta]
        omega

/-- The scan is over before the braces of the lines that it passes run below zero. -/
theorem scanLines_ends (number : Nat) {s : Scrubber} {k : Counters} {taken rest : List Text}
    (hfits : k.Fits (s.codes (taken ++ rest)).flatten)
    (hnegative : k.depth + ((s.codes taken).map Code.braceDelta).sum < 0) :
    ∃ last, (scanLines number s k (taken ++ rest)).2.2 = some last ∧
      last < number + taken.length := by
  induction taken generalizing number s k with
  | nil =>
    have hdepth := hfits.depth_nonneg
    simp only [Scrubber.codes_nil, List.map_nil, List.sum_nil] at hnegative
    omega
  | cons line taken ih =>
    rw [List.cons_append, scanLines]
    simp only [List.cons_append, Scrubber.codes_cons, List.flatten_cons] at hfits
    simp only [Scrubber.codes_cons, List.map_cons, List.sum_cons] at hnegative
    simp only [List.length_cons]
    split
    · exact ⟨number, rfl, by omega⟩
    · exact ⟨number, rfl, by omega⟩
    · rename_i k' text hmore
      obtain ⟨hfits', hdepth'⟩ := scanLine_more hmore hfits
      obtain ⟨last, hlast, hlt⟩ := ih (number + 1) hfits' (by omega)
      exact ⟨last, hlast, by omega⟩

theorem scan_last {lines : List Text} {start stop : Nat}
    (h : (scanLines start {} {} (lines.drop start)).2.2 = some stop) :
    (scan lines start).last = stop := by
  simp [scan, h]

/-- The scan of a body that does not end goes as far as the last line. -/
theorem scan_last_of_none {lines : List Text} {start : Nat}
    (h : (scanLines start {} {} (lines.drop start)).2.2 = none) :
    (scan lines start).last = max (lines.length - 1) start := by
  simp [scan, h]

theorem scan_start (lines : List Text) (start : Nat) : (scan lines start).start = start := rfl

end PhpLint.Body
