import PhpLint.Proofs.Declaration.Suffix
import PhpLint.Proofs.Text.Padding

/-!
Of which characters names consist. An ASCII name is read back in front of any character
that cannot continue it; a qualified name consists of identifier characters and
backslashes; a keyword that is read is the start of the text up to case.
-/

namespace PhpLint

namespace Text

theorem isBlank_of_isIdentPart {c : Char} (h : isIdentPart c = true) : isBlank c = false := by
  by_contra hblank
  have hident : (decide (c.val ≥ 65 ∧ c.val ≤ 90) || (c.val ≥ 97 && c.val ≤ 122) ||
      (c.val ≥ 48 && c.val ≤ 57) || c == '_') = true := h
  simp only [isBlank, Bool.not_eq_false, Bool.or_eq_true, Bool.and_eq_true, decide_eq_true_eq,
    beq_iff_eq] at hblank
  simp only [Bool.or_eq_true, Bool.and_eq_true, decide_eq_true_eq, beq_iff_eq, ge_iff_le,
    UInt32.le_iff_toNat_le] at hident
  rcases hident with hident | rfl
  · simp at hident
    omega
  · simp at hblank

theorem isIdentPart_of_isIdentStart {c : Char} (h : isIdentStart c = true) :
    isIdentPart c = true := by
  have hstart : (c.isAlpha || c == '_') = true := h
  change (c.isAlpha || c.isDigit || c == '_') = true
  rw [Bool.or_eq_true] at hstart
  rcases hstart with halpha | hunderscore
  · simp [halpha]
  · simp [hunderscore]

theorem isIdentPart_of_toLower {c : Char} (h : isIdentPart c.toLower = true) :
    isIdentPart c = true := by
  unfold Char.toLower at h
  split at h
  · rename_i hupper
    have hcase : c.isUpper = true := decide_eq_true hupper
    change (c.isUpper || c.isLower || c.isDigit || c == '_') = true
    simp [hcase]
  · exact h

end Text

namespace Code

/-- Whether a text is an ASCII name. -/
def isIdentifier (s : Text) : Bool := identifier? s == some (s, [])

variable {first part : Char → Bool}

theorem readRun?_eq_append {s run rest : Text} (h : readRun? first part s = some (run, rest)) :
    s = run ++ rest ∧ ∃ c t, run = c :: t ∧ first c = true ∧ ∀ d ∈ t, part d = true := by
  cases s with
  | nil => cases h
  | cons c s =>
    rw [readRun?] at h
    split at h
    · rename_i hc
      simp only [Option.some.injEq, Prod.mk.injEq] at h
      obtain ⟨rfl, rfl⟩ := h
      exact ⟨by simp, c, _, rfl, hc, List.all_eq_true.mp List.all_takeWhile⟩
    · cases h

theorem readRun?_append {c : Char} {t rest : Text} (hc : first c = true)
    (ht : ∀ d ∈ t, part d = true) (hrest : ∀ d ∈ rest.head?, part d = false) :
    readRun? first part (c :: t ++ rest) = some (c :: t, rest) := by
  have htake : rest.takeWhile part = [] := by
    cases rest with
    | nil => rfl
    | cons d rest => simp [hrest d rfl]
  have hdrop : rest.dropWhile part = rest := by
    cases rest with
    | nil => rfl
    | cons d rest => simp [hrest d rfl]
  rw [List.cons_append, readRun?, if_pos hc, List.takeWhile_append_of_pos ht,
    List.dropWhile_append_of_pos ht, htake, hdrop, List.append_nil]

theorem foldLetter_of_isIdentPart {c : Char} (h : Text.isIdentPart c = true) :
    foldLetter c = c.toLower := by
  have hlong : c ≠ 'ſ' := by
    rintro rfl
    cases h
  have hkelvin : c ≠ '\u212a' := by
    rintro rfl
    cases h
  rw [foldLetter, if_neg hlong, if_neg hkelvin]

/-- Only a parenthesis folds to one. -/
theorem foldLetter_ne_paren {c : Char} (h : c ≠ '(') : foldLetter c ≠ '(' := by
  unfold foldLetter
  split
  · decide
  · split
    · decide
    · unfold Char.toLower
      split
      · rename_i hc
        obtain ⟨hlow, hhigh⟩ := hc
        intro heq
        have hval := congrArg (fun c : Char => c.val.toNat) heq
        simp only [ge_iff_le, UInt32.le_iff_toNat_le] at hlow hhigh
        simp only [UInt32.toNat_add] at hval
        simp at hlow hhigh hval
        omega
      · exact h

theorem isIdentifier_iff {s : Text} :
    isIdentifier s = true ↔
      ∃ c t, s = c :: t ∧ Text.isIdentStart c = true ∧ ∀ d ∈ t, Text.isIdentPart d = true := by
  rw [isIdentifier, beq_iff_eq]
  constructor
  · intro h
    exact (readRun?_eq_append h).2
  · rintro ⟨c, t, rfl, hc, ht⟩
    have hrun : identifier? (c :: t ++ []) = some (c :: t, []) := readRun?_append hc ht (by simp)
    rwa [List.append_nil] at hrun

theorem isIdentPart_of_isIdentifier {s : Text} (h : isIdentifier s = true) :
    ∀ c ∈ s, Text.isIdentPart c = true := by
  obtain ⟨c, t, rfl, hc, ht⟩ := isIdentifier_iff.mp h
  exact List.forall_mem_cons.mpr ⟨Text.isIdentPart_of_isIdentStart hc, ht⟩

/-- An ASCII name is a name, as far as no letter goes on behind it. -/
theorem name?_append {s rest : Text} (h : isIdentifier s = true)
    (hrest : ∀ c ∈ rest.head?, isNamePart c = false) : name? (s ++ rest) = some (s, rest) := by
  obtain ⟨c, t, rfl, hc, ht⟩ := isIdentifier_iff.mp h
  refine readRun?_append ?_ ?_ hrest
  · simp [isNameStart, hc]
  · intro d hd
    simp [isNamePart, ht d hd]

/-- The characters of qualified names. -/
def isQualifiedPart (c : Char) : Bool := Text.isIdentPart c || c == '\\'

theorem isBlank_of_isQualifiedPart {c : Char} (h : isQualifiedPart c = true) :
    Text.isBlank c = false := by
  rw [isQualifiedPart, Bool.or_eq_true, beq_iff_eq] at h
  rcases h with h | rfl
  · exact Text.isBlank_of_isIdentPart h
  · decide

theorem trimmed_of_isIdentifier {s : Text} (h : isIdentifier s = true) : Text.Trimmed s := by
  have hblank : ∀ c ∈ s, Text.isBlank c = false := fun c hc =>
    Text.isBlank_of_isIdentPart (isIdentPart_of_isIdentifier h c hc)
  obtain ⟨c, t, rfl, -, -⟩ := isIdentifier_iff.mp h
  exact .of_not_blank (List.cons_ne_nil c t) hblank

theorem blanks?_trimmed {s : Text} (h : Text.Trimmed s) (t : Text) :
    blanks? (' ' :: (s ++ t)) = some (s ++ t) := by
  have hblank : Text.isBlank ' ' = true := rfl
  rw [blanks?, if_pos hblank, h.trimStart_append]

/-- A part of a qualified name folds as ASCII letters do. -/
theorem map_foldLetter_of_isQualifiedPart {s : Text} (h : ∀ c ∈ s, isQualifiedPart c = true) :
    s.map foldLetter = Text.asciiLower s := by
  refine List.map_congr_left fun c hc => ?_
  have hpart := h c hc
  rw [isQualifiedPart, Bool.or_eq_true, beq_iff_eq] at hpart
  rcases hpart with hpart | rfl
  · exact foldLetter_of_isIdentPart hpart
  · decide

theorem isQualifiedPart_of_readRun? {s run rest : Text}
    (h : readRun? Text.isIdentStart Text.isIdentPart s = some (run, rest)) :
    ∀ c ∈ run, isQualifiedPart c = true := by
  obtain ⟨-, c, t, rfl, hc, ht⟩ := readRun?_eq_append h
  refine List.forall_mem_cons.mpr ⟨?_, fun d hd => ?_⟩
  · simp [isQualifiedPart, Text.isIdentPart_of_isIdentStart hc]
  · simp [isQualifiedPart, ht d hd]

theorem segments_eq_append (fuel : Nat) (s : Text) :
    (segments Text.isIdentStart Text.isIdentPart fuel s).1 ++
        (segments Text.isIdentStart Text.isIdentPart fuel s).2 = s ∧
      ∀ c ∈ (segments Text.isIdentStart Text.isIdentPart fuel s).1, isQualifiedPart c = true := by
  induction fuel generalizing s with
  | zero => simp [segments]
  | succ fuel ih =>
    unfold segments
    split
    · rename_i t
      cases hrun : readRun? Text.isIdentStart Text.isIdentPart t with
      | none => simp
      | some found =>
        obtain ⟨segment, rest⟩ := found
        obtain ⟨hsame, hmore⟩ := ih rest
        refine ⟨?_, ?_⟩
        · simp [hsame, (readRun?_eq_append hrun).1]
        · have hsegment := isQualifiedPart_of_readRun? hrun
          simp only [List.cons_append, List.mem_cons, List.mem_append]
          rintro c (rfl | hc | hc)
          · rfl
          · exact hsegment c hc
          · exact hmore c hc
    · simp

theorem readQualified?_eq_append {s name rest : Text}
    (h : readQualified? Text.isIdentStart Text.isIdentPart s = some (name, rest)) :
    s = name ++ rest ∧ name ≠ [] ∧ ∀ c ∈ name, isQualifiedPart c = true := by
  -- The backslash in front, if there is one, and what is read behind it.
  obtain ⟨lead, t, rfl, hlead, segment, after, hrun, hname, hrest⟩ : ∃ lead t, s = lead ++ t ∧
      (lead = [] ∨ lead = ['\\']) ∧ ∃ segment after,
        readRun? Text.isIdentStart Text.isIdentPart t = some (segment, after) ∧
        name = lead ++ segment ++
          (segments Text.isIdentStart Text.isIdentPart after.length after).1 ∧
        rest = (segments Text.isIdentStart Text.isIdentPart after.length after).2 := by
    unfold readQualified? at h
    split at h
    rename_i lead t hsplit
    split at h
    · rename_i segment after hrun
      obtain ⟨rfl, rfl⟩ := Prod.mk.inj (Option.some.inj h)
      split at hsplit
      · obtain ⟨rfl, rfl⟩ := Prod.mk.inj hsplit
        exact ⟨_, _, rfl, .inr rfl, segment, after, hrun, rfl, rfl⟩
      · obtain ⟨rfl, rfl⟩ := Prod.mk.inj hsplit
        exact ⟨_, _, rfl, .inl rfl, segment, after, hrun, rfl, rfl⟩
    · cases h
  obtain ⟨hsegments, hmore⟩ := segments_eq_append after.length after
  obtain ⟨hafter, c, u, rfl, -⟩ := readRun?_eq_append hrun
  have hsegment := isQualifiedPart_of_readRun? hrun
  refine ⟨by rw [hname, hrest, hafter]; simp [hsegments], by simp [hname], ?_⟩
  intro d hd
  rw [hname] at hd
  rcases List.mem_append.mp hd with hd | hd
  · rcases List.mem_append.mp hd with hd | hd
    · rcases hlead with rfl | rfl
      · cases hd
      · rw [List.mem_singleton.mp hd]
        rfl
    · exact hsegment d hd
  · exact hmore d hd

theorem isQualifiedPart_of_isQualifiedName {s : Text} (h : isQualifiedName s = true) :
    s ≠ [] ∧ ∀ c ∈ s, isQualifiedPart c = true := by
  unfold isQualifiedName at h
  split at h
  · rename_i name rest hread
    obtain ⟨rfl, hne, hparts⟩ := readQualified?_eq_append hread
    rw [List.isEmpty_iff.mp h, List.append_nil]
    exact ⟨hne, hparts⟩
  · cases h

end Code

end PhpLint
