import PhpLint.Glob

/-!
What an exclude pattern matches. The matcher goes from the last token to the first and keeps,
for every end of a text, whether the tokens so far accept it. Main statement: it accepts a
text exactly if the text can be cut into pieces for which the tokens stand, one after the
other.
-/

namespace PhpLint

namespace Ends

variable {α : Type} {p : α → Bool} {test : List α → Bool}

theorem oneTest_eq_true_iff {s : List α} :
    oneTest p test s = true ↔ ∃ a rest, s = a :: rest ∧ p a = true ∧ test rest = true := by
  cases s with
  | nil => simp [oneTest]
  | cons a s =>
    rw [oneTest, Bool.and_eq_true]
    constructor
    · exact fun h => ⟨a, s, rfl, h⟩
    · rintro ⟨_, _, ⟨⟩, h⟩
      exact h

theorem past_passing (p : α → Bool) (test : List α → Bool) (s : List α) :
    past p s (passing test s) = passing (manyTest (fun _ => true) (oneTest p test)) s := by
  rw [past, one_passing, many_passing]

/-- The last end is the empty one. -/
theorem getLast?_passing (test : List α → Bool) (s : List α) :
    (passing test s).getLast? = some (test []) := by
  induction s with
  | nil => rfl
  | cons a s ih => rw [passing, List.getLast?_cons, ih, Option.getD_some]

end Ends

namespace Glob

variable {tokens : List GlobToken} {s : Text}

/-- The tokens stand for the pieces of a text, one after the other. -/
inductive Matches : List GlobToken → Text → Prop where
  | nil : Matches [] []
  | one {token : GlobToken} {c : Char} {rest : List GlobToken} {s : Text}
    (hadmits : admits token c = true) (hrest : Matches rest s) : Matches (token :: rest) (c :: s)
  | anyText (skipped : Text) {rest : List GlobToken} {s : Text} (hrest : Matches rest s) :
    Matches (.anyText :: rest) (skipped ++ s)
  | noComponent {rest : List GlobToken} {s : Text} (hrest : Matches rest s) :
    Matches (.anyComponents :: rest) s
  /-- Components with the separator behind the last of them. -/
  | components (skipped : Text) {rest : List GlobToken} {s : Text} (hrest : Matches rest s) :
    Matches (.anyComponents :: rest) (skipped ++ '/' :: s)
  /-- All that is left, if nothing need follow. -/
  | allComponents (skipped : Text) {rest : List GlobToken} (hrest : Matches rest []) :
    Matches (.anyComponents :: rest) skipped

/-- The test of a token and a tested end behind it. -/
def tokenTest (token : GlobToken) (test : Text → Bool) (s : Text) : Bool :=
  match token with
  | .anyText => Ends.manyTest (fun _ => true) test s
  | .anyComponents =>
    test [] || (test s || Ends.manyTest (fun _ => true) (Ends.oneTest (· == '/') test) s)
  | token => Ends.oneTest (admits token) test s

theorem endsFrom_passing (token : GlobToken) (test : Text → Bool) (s : Text) :
    endsFrom token s (Ends.passing test s) = Ends.passing (tokenTest token test) s := by
  cases token with
  | char c => exact Ends.one_passing _ _ _
  | anyChar => exact Ends.one_passing _ _ _
  | set negated members => exact Ends.one_passing _ _ _
  | anyText => exact Ends.many_passing _ _ _
  | anyComponents =>
    rw [endsFrom, Ends.getLast?_passing, Ends.past_passing, Ends.either_passing]
    unfold tokenTest
    cases test [] <;> rfl

/-- The ends that all tokens accept are those that pass their tests. -/
theorem foldr_endsFrom (tokens : List GlobToken) (s : Text) :
    tokens.foldr (fun token => endsFrom token s) (Ends.passing List.isEmpty s) =
      Ends.passing (tokens.foldr tokenTest List.isEmpty) s := by
  induction tokens with
  | nil => rfl
  | cons token tokens ih => rw [List.foldr_cons, ih, endsFrom_passing, List.foldr_cons]

/-- A token for one character stands for one that it admits. -/
theorem matches_one_iff {token : GlobToken} (htext : token ≠ .anyText)
    (hcomponents : token ≠ .anyComponents) :
    Matches (token :: tokens) s ↔
      ∃ c rest, s = c :: rest ∧ admits token c = true ∧ Matches tokens rest := by
  constructor
  · intro h
    cases h with
    | one hadmits hrest => exact ⟨_, _, rfl, hadmits, hrest⟩
    | anyText skipped hrest => exact absurd rfl htext
    | noComponent hrest => exact absurd rfl hcomponents
    | components skipped hrest => exact absurd rfl hcomponents
    | allComponents skipped hrest => exact absurd rfl hcomponents
  · rintro ⟨c, rest, rfl, hadmits, hrest⟩
    exact .one hadmits hrest

theorem matches_anyText_iff :
    Matches (.anyText :: tokens) s ↔ ∃ skipped rest, s = skipped ++ rest ∧ Matches tokens rest := by
  constructor
  · intro h
    cases h with
    | one hadmits hrest => cases hadmits
    | anyText skipped hrest => exact ⟨skipped, _, rfl, hrest⟩
  · rintro ⟨skipped, rest, rfl, hrest⟩
    exact .anyText skipped hrest

theorem matches_anyComponents_iff :
    Matches (.anyComponents :: tokens) s ↔ Matches tokens [] ∨ Matches tokens s ∨
      ∃ skipped rest, s = skipped ++ '/' :: rest ∧ Matches tokens rest := by
  constructor
  · intro h
    cases h with
    | one hadmits hrest => cases hadmits
    | noComponent hrest => exact .inr (.inl hrest)
    | components skipped hrest => exact .inr (.inr ⟨skipped, _, rfl, hrest⟩)
    | allComponents skipped hrest => exact .inl hrest
  · rintro (hrest | hrest | ⟨skipped, rest, rfl, hrest⟩)
    · exact .allComponents s hrest
    · exact .noComponent hrest
    · exact .components skipped hrest

/-- The test of a token is that of its pieces, in front of those of the other tokens. -/
theorem tokenTest_iff {token : GlobToken} {test : Text → Bool}
    (htest : ∀ s, test s = true ↔ Matches tokens s) (s : Text) :
    tokenTest token test s = true ↔ Matches (token :: tokens) s := by
  have hone : token ≠ .anyText → token ≠ .anyComponents →
      (Ends.oneTest (admits token) test s = true ↔ Matches (token :: tokens) s) := by
    intro htext hcomponents
    rw [Ends.oneTest_eq_true_iff, matches_one_iff htext hcomponents]
    simp only [htest]
  cases token with
  | char c => exact hone (by simp) (by simp)
  | anyChar => exact hone (by simp) (by simp)
  | set negated members => exact hone (by simp) (by simp)
  | anyText =>
    rw [tokenTest, Ends.manyTest_eq_true_iff, matches_anyText_iff]
    simp [htest]
  | anyComponents =>
    rw [tokenTest, Bool.or_eq_true, Bool.or_eq_true, Ends.manyTest_eq_true_iff,
      matches_anyComponents_iff, htest, htest]
    simp only [Ends.oneTest_eq_true_iff, beq_iff_eq, htest]
    refine or_congr_right (or_congr_right ⟨?_, ?_⟩)
    · rintro ⟨skipped, back, rfl, -, c, rest, rfl, rfl, hrest⟩
      exact ⟨skipped, rest, rfl, hrest⟩
    · rintro ⟨skipped, rest, rfl, hrest⟩
      exact ⟨skipped, _, rfl, by simp, '/', rest, rfl, rfl, hrest⟩

theorem foldr_tokenTest_iff (tokens : List GlobToken) (s : Text) :
    tokens.foldr tokenTest List.isEmpty s = true ↔ Matches tokens s := by
  induction tokens generalizing s with
  | nil =>
    rw [List.foldr_nil, List.isEmpty_iff]
    constructor
    · rintro rfl
      exact .nil
    · rintro ⟨⟩
      rfl
  | cons token tokens ih => exact tokenTest_iff ih s

/-- A pattern matches a text exactly if its tokens stand for the pieces of the text. -/
theorem isMatch_iff (g : Glob) (s : Text) : g.isMatch s = true ↔ Matches g.tokens s := by
  rw [isMatch, matchTokens, foldr_endsFrom, Ends.whole_passing, foldr_tokenTest_iff]

end Glob

end PhpLint
