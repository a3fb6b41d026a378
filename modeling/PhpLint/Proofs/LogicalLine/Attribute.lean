import PhpLint.Declaration.Property
import PhpLint.Proofs.Code.Attribute
import PhpLint.Proofs.LogicalLine.LineComment
import PhpLint.Proofs.LogicalLine.Marks

/-!
Logical lines of a file and of the same file with an attribute in front of a declaration. The
two runs of the reader hold the same lines back. The attribute takes part in what is joined:
its parentheses are counted, and its text and code stand in front of the joined ones; but it
adds as many closing parentheses as opening ones, none of them ends a signature, and the
declaration behind it is the same.
-/

namespace PhpLint.LogicalLine

open Code (Fronts)

/-- A text, and the same text behind another one, with blanks between them. -/
def Behind (front s s' : Text) : Prop :=
  ∃ blanks, (∀ c ∈ blanks, Text.isBlank c = true) ∧ s' = front ++ (blanks ++ s)

namespace Behind

variable {front s s' : Text}

theorem trim (hfront : Text.Trimmed front) (h : Behind front s s') :
    Behind front (Text.trim s) (Text.trim s') := by
  obtain ⟨blanks, hblanks, rfl⟩ := h
  obtain ⟨more, hmore, htrimEnd⟩ := Text.exists_trimEnd (blanks ++ s)
  have htrim : Text.trim (blanks ++ s) = Text.trim s := by
    rw [Text.trim, Text.trimStart_append_of_blank hblanks, Text.trim]
  refine ⟨more, hmore, ?_⟩
  rw [Text.trim, hfront.trimStart_append, hfront.trimEnd_append, htrimEnd, htrim]

theorem ne_nil (hfront : Text.Trimmed front) (h : Behind front s s') : s' ≠ [] := by
  obtain ⟨blanks, -, rfl⟩ := h
  simp [hfront.ne_nil]

theorem append (hfront : Text.Trimmed front) (h : Behind front s s') (piece : Text) :
    Behind front (append s piece) (append s' piece) := by
  rw [append_eq_if, append_eq_if, if_neg (h.ne_nil hfront)]
  obtain ⟨blanks, hblanks, rfl⟩ := h
  split
  · exact ⟨blanks, hblanks, rfl⟩
  · split
    · rename_i hnil
      refine ⟨blanks ++ [' '], ?_, by simp [hnil]⟩
      exact List.forall_mem_append.mpr ⟨hblanks, List.all_eq_true.mp rfl⟩
    · exact ⟨blanks, hblanks, by simp⟩

end Behind

section Signature

theorem hasSignatureEnd_append_of_not_mem {front : Text} (h : ')' ∉ front) (s : Text) :
    hasSignatureEnd (front ++ s) = hasSignatureEnd s := by
  induction front with
  | nil => rfl
  | cons c front ih =>
    rw [List.mem_cons, not_or] at h
    simp [hasSignatureEnd, ih h.2, Ne.symm h.1]

/-- Where a parenthesis is followed by a bracket, no signature ends. -/
theorem hasSignatureEnd_append_of_bracket {front : Text}
    (h : ∀ before back, front = before ++ ')' :: back → back.head? = some ']') (s : Text) :
    hasSignatureEnd (front ++ s) = hasSignatureEnd s := by
  induction front with
  | nil => rfl
  | cons c front ih =>
    have hmore := ih fun before back hsplit => h (c :: before) back (by rw [hsplit]; rfl)
    rw [List.cons_append, hasSignatureEnd, hmore]
    by_cases hc : c = ')'
    · obtain ⟨rest, rfl⟩ := List.head?_eq_some_iff.mp (h [] front (by rw [hc]; rfl))
      have hends : endsSignature (']' :: (rest ++ s)) = false := by
        rw [endsSignature, Text.trimStart_cons_of_not_blank (by decide)]
        rfl
      rw [List.cons_append, hends, Bool.and_false, Bool.false_or]
    · simp [hc]

/-- A code that ends with a parenthesis has one. -/
theorem count_pos_of_endsWithParen {code : Text} (h : endsWithParen code = true) :
    0 < code.count ')' := by
  rw [endsWithParen, beq_iff_eq] at h
  obtain ⟨blanks, hcode, -⟩ := Text.exists_blanks_behind code
  rw [List.count_pos_iff, hcode]
  exact List.mem_append_left _ (List.mem_of_getLast? h)

end Signature

section Fronts

variable {text code : Text} (h : Fronts text code) {s s' : Text}

include h

theorem trimmed_text : Text.Trimmed text :=
  ⟨⟨'#', h.text_starts, by decide⟩, ⟨']', h.text_ends, by decide⟩⟩

theorem trimmed_code : Text.Trimmed code :=
  ⟨⟨'#', h.code_starts, by decide⟩, ⟨']', h.code_ends, by decide⟩⟩

/-- The declaration behind an attribute is the same. -/
theorem stripAttributes_behind (hs : Behind text s s') :
    Code.stripAttributes s' = Code.stripAttributes s := by
  obtain ⟨blanks, hblanks, rfl⟩ := hs
  rw [h.strip_eq, Code.stripAttributes, Code.stripAttributes,
    Text.trimStart_append_of_blank hblanks]

theorem endsWithParen_behind (hs : Behind code s s') : endsWithParen s' = endsWithParen s := by
  obtain ⟨blanks, hblanks, rfl⟩ := hs
  rw [endsWithParen, (trimmed_code h).trimEnd_append, Text.trimEnd_append_blanks hblanks,
    endsWithParen]
  split
  · rename_i hnil
    rw [List.append_nil, h.code_ends, hnil]
    rfl
  · rename_i hne
    rw [List.getLast?_append_of_ne_nil _ (by simp [hne]), List.getLast?_append_of_ne_nil _ hne]

theorem hasSignatureEnd_behind (hs : Behind code s s') :
    hasSignatureEnd (Text.trimEnd s') = hasSignatureEnd (Text.trimEnd s) := by
  obtain ⟨blanks, hblanks, rfl⟩ := hs
  have hparen : ')' ∉ blanks := fun hmem => absurd (hblanks _ hmem) (by decide)
  rw [(trimmed_code h).trimEnd_append, Text.trimEnd_append_blanks hblanks,
    hasSignatureEnd_append_of_bracket fun before back hsplit => by rw [h.signature _ _ hsplit]; rfl]
  split
  · rename_i hnil
    rw [hnil]
  · exact hasSignatureEnd_append_of_not_mem hparen _

theorem contains_behind (hs : Behind code s s') {c : Char} (hc : c ∈ ['\x7b', '\x7d', ';']) :
    s'.contains c = s.contains c := by
  obtain ⟨blanks, hblanks, rfl⟩ := hs
  have hblank : c ∉ blanks := by
    intro hmem
    have hnot := hblanks c hmem
    simp only [List.mem_cons, List.not_mem_nil, or_false] at hc
    rcases hc with rfl | rfl | rfl <;> exact absurd hnot (by decide)
  simp [h.plain c hc, hblank]

theorem braceDelta_behind (hs : Behind code s s') : Code.braceDelta s' = Code.braceDelta s := by
  obtain ⟨blanks, hblanks, rfl⟩ := hs
  have hblank : ∀ {c}, Text.isBlank c = false → c ∉ blanks := fun hc hmem => by
    rw [hblanks _ hmem] at hc
    cases hc
  rw [Code.braceDelta_append, Code.braceDelta_append,
    Code.braceDelta_of_not_mem (h.plain _ (by decide)) (h.plain _ (by decide)),
    Code.braceDelta_of_not_mem (hblank (by decide)) (hblank (by decide))]
  omega

theorem parenCounts_behind (hs : Behind code s s') :
    Code.parenCounts s' =
      ((Code.parenCounts s).1 + code.count '(', (Code.parenCounts s).2 + code.count '(') := by
  obtain ⟨blanks, hblanks, rfl⟩ := hs
  have hblank : ∀ {c}, Text.isBlank c = false → blanks.count c = 0 := fun hc =>
    List.count_eq_zero_of_not_mem fun hmem => by
      rw [hblanks _ hmem] at hc
      cases hc
  simp only [Code.parenCounts, List.count_append, hblank (c := '(') (by decide),
    hblank (c := ')') (by decide), ← h.parens]
  ext <;> simp only [] <;> omega

end Fronts

section Starts

/-- A text that one of the patterns of classes, functions and properties matches. -/
def Declares (s : Text) : Prop :=
  (ClassDecl.readHead? s).isSome ∨ (FunctionDecl.readHead? s).isSome ∨
    (Property.readHead? s).isSome

/-- The letters with which the keywords of declarations start. -/
def declarationStarts : List Char := "afrcitepsv".toList

/-- A text whose first character that is not blank can start a keyword of a declaration. -/
def StartsDeclaration (s : Text) : Prop :=
  ∃ c ∈ (Text.trimStart s).head?, Code.foldLetter c ∈ declarationStarts

variable {s : Text}

theorem head?_of_anyKeyword? {words : List Text}
    (hwords : words.all (·.head?.any declarationStarts.contains) = true)
    (h : (Code.anyKeyword? words s).isSome) :
    ∃ c ∈ s.head?, Code.foldLetter c ∈ declarationStarts := by
  obtain ⟨⟨word, rest⟩, hword⟩ := Option.isSome_iff_exists.mp h
  obtain ⟨rfl, hfold⟩ := Code.eq_append_of_anyKeyword? hword
  have hstart := List.all_eq_true.mp hwords _ hfold
  cases word with
  | nil => cases hstart
  | cons c word => exact ⟨c, rfl, by simpa using hstart⟩

theorem readAll_cases (family : Modifier.Family) (s : Text) :
    Modifier.readAll family s = ([], s) ∨ (Code.anyKeyword? family.words s).isSome := by
  cases h : Code.anyKeyword? family.words s with
  | none => exact .inl (Modifier.readAll_of_anyKeyword? h)
  | some x => exact .inr rfl

theorem startsDeclaration_of_declares (h : Declares s) : StartsDeclaration s := by
  have hkinds : ClassKind.keywords.all (·.head?.any declarationStarts.contains) = true := by decide
  have hfunction : ["function".toList].all (·.head?.any declarationStarts.contains) = true := by
    decide
  rcases h with h | h | h
  · have hmodifiers := readAll_cases ClassDecl.modifiers (Text.trimStart s)
    rcases hmodifiers with hnone | hsome
    · refine head?_of_anyKeyword? hkinds ?_
      unfold ClassDecl.readHead? at h
      rw [hnone] at h
      cases hkeyword : Code.anyKeyword? ClassKind.keywords (Text.trimStart s) <;> simp_all
    · exact head?_of_anyKeyword? (by decide) hsome
  · have hmodifiers := readAll_cases FunctionDecl.modifiers (Text.trimStart s)
    rcases hmodifiers with hnone | hsome
    · refine head?_of_anyKeyword? hfunction ?_
      unfold FunctionDecl.readHead? at h
      rw [hnone] at h
      cases hkeyword : Code.keyword? "function".toList (Text.trimStart s) <;>
        simp_all [Code.anyKeyword?]
    · exact head?_of_anyKeyword? (by decide) hsome
  · have hmodifiers := readAll_cases Property.modifiers (Text.trimStart s)
    rcases hmodifiers with hnone | hsome
    · unfold Property.readHead? at h
      rw [hnone] at h
      cases h
    · exact head?_of_anyKeyword? (by decide) hsome

namespace StartsDeclaration

theorem ne_of_starts {c : Char} (h : Code.foldLetter c ∈ declarationStarts) :
    c ∉ [':', '/', '#', '<', '\'', '"', '`'] := by
  have hclass : declarationStarts.contains (Code.foldLetter c) = true := by simpa using h
  exact Text.not_mem_of_class (p := fun d => declarationStarts.contains (Code.foldLetter d))
    hclass (by decide)

theorem exists_trimStart (h : StartsDeclaration s) :
    ∃ c t, Text.trimStart s = c :: t ∧ Code.foldLetter c ∈ declarationStarts := by
  obtain ⟨c, hc, hstart⟩ := h
  obtain ⟨t, ht⟩ := List.head?_eq_some_iff.mp hc
  exact ⟨c, t, ht, hstart⟩

theorem of_trimStart {c : Char} {t : Text} (h : Text.trimStart s = c :: t)
    (hstart : Code.foldLetter c ∈ declarationStarts) : StartsDeclaration s :=
  ⟨c, by rw [h]; rfl, hstart⟩

theorem trim (h : StartsDeclaration s) : StartsDeclaration (Text.trim s) := by
  obtain ⟨c, t, ht, hstart⟩ := h.exists_trimStart
  rw [Text.trim_of_trimStart ht]
  exact of_trimStart
    (Text.trimStart_cons_of_not_blank (Text.not_blank_of_trimStart ht) _) hstart

theorem append (h : StartsDeclaration s) (piece : Text) : StartsDeclaration (append s piece) := by
  obtain ⟨c, t, ht, hstart⟩ := h.exists_trimStart
  have hne : s ≠ [] := by
    rintro rfl
    cases ht
  rw [append_eq_if, if_neg hne]
  split
  · exact of_trimStart ht hstart
  · refine of_trimStart (c := c) (t := t ++ ' ' :: Text.trim piece) ?_ hstart
    rw [Scrubber.trimStart_comment (by simp [ht]), ht, List.cons_append]

/-- Comments are dropped behind the first character, if it starts a declaration. -/
theorem scan (h : StartsDeclaration s) (keep : Bool) :
    StartsDeclaration (Scrubber.scan keep .code s).1 := by
  obtain ⟨c, t, ht, hstart⟩ := h.exists_trimStart
  obtain ⟨blanks, hs, hblanks⟩ := Text.exists_blanks s
  have hplain : ∀ d ∈ blanks, d ∉ ['/', '#', '<', '\'', '"', '`'] := fun d hd =>
    Text.not_mem_of_class (hblanks d hd) (by decide)
  have hc : c ∉ ['/', '#', '<', '\'', '"', '`'] := fun hmem =>
    ne_of_starts hstart (List.mem_cons_of_mem _ hmem)
  rw [hs, ht, Scrubber.scan_append_plain hplain, Scrubber.scan_code_cons hc]
  exact of_trimStart
    (Text.trimStart_append_char hblanks (Text.not_blank_of_trimStart ht) _) hstart

/-- A line with such a text is not blank, and no result type starts it. -/
theorem not_result {keep : Bool} (h : StartsDeclaration (Scrubber.scan keep .code s).1) :
    Text.trim s ≠ [] ∧ startsReturnType (some s) = false := by
  obtain ⟨c, t, ht, hstart⟩ := h.exists_trimStart
  obtain ⟨blanks, hs, hblanks⟩ := Text.exists_blanks s
  have hplain : ∀ d ∈ blanks, d ∉ ['/', '#', '<', '\'', '"', '`'] := fun d hd =>
    Text.not_mem_of_class (hblanks d hd) (by decide)
  rw [hs, Scrubber.scan_append_plain hplain, Text.trimStart_append_of_blank hblanks] at ht
  cases hline : Text.trimStart s with
  | nil =>
    rw [hline] at ht
    cases ht
  | cons d rest =>
    refine ⟨by rw [Ne, Text.trim_eq_nil_iff, hline]; exact List.cons_ne_nil _ _, ?_⟩
    have hcolon : d ≠ ':' := by
      rintro rfl
      rw [hline, Scrubber.scan_code_cons (by decide),
        Text.trimStart_cons_of_not_blank (by decide)] at ht
      obtain rfl := (List.cons.inj ht).1
      exact ne_of_starts hstart (by decide)
    rw [startsReturnType, Option.map_some, hline]
    simp [hcolon]

end StartsDeclaration

end Starts

/-- A line is joined on as a signature for its parentheses. -/
theorem opened_pos_of_pending? {line : LogicalLine} {next : Option Text}
    (h : pending? line next = some .signature) : 0 < (Code.parenCounts line.code).1 := by
  unfold pending? at h
  generalize Code.parenCounts line.code = counts at h
  obtain ⟨opened, closed⟩ := counts
  simp only at h
  split at h
  · split at h
    · rename_i hcounts
      rcases hcounts with hmore | hdangling
      · exact Nat.zero_lt_of_lt hmore
      · simp only [Bool.and_eq_true, decide_eq_true_eq] at hdangling
        exact hdangling.1.1.1
    · cases h
  · split at h <;> cases h

/-- What the reader makes of some lines stands on them, or is what it held back. -/
theorem first_of_mem_ofLinesFrom {number : Nat} {coder texter : Scrubber} {buffer : Option Buffer}
    {raw : List Text} {line : LogicalLine} (h : line ∈ ofLinesFrom number coder texter buffer raw) :
    (∃ b ∈ buffer, line.first = b.line.first) ∨ number ≤ line.first := by
  induction raw generalizing number coder texter buffer with
  | nil =>
    obtain ⟨b, hb, rfl⟩ := Option.map_eq_some_iff.mp (Option.mem_toList.mp h)
    exact .inl ⟨b, hb, rfl⟩
  | cons text raw ih =>
    cases buffer with
    | some b =>
      rw [ofLinesFrom_push] at h
      split at h
      · rcases List.mem_cons.mp h with rfl | h
        · exact .inl ⟨b, rfl, rfl⟩
        · obtain ⟨_, hnone, -⟩ | hfirst := ih h
          · cases hnone
          · exact .inr (by omega)
      · obtain ⟨_, hb, hfirst⟩ | hfirst := ih h
        · obtain rfl := Option.some.inj hb
          exact .inl ⟨b, rfl, hfirst⟩
        · exact .inr (by omega)
    | none =>
      rw [ofLinesFrom_single] at h
      split at h
      · obtain ⟨_, hb, hfirst⟩ | hfirst := ih h
        · obtain rfl := Option.some.inj hb
          exact .inr hfirst.ge
        · exact .inr (by omega)
      · rcases List.mem_cons.mp h with rfl | h
        · exact .inr (Nat.le_refl number)
        · obtain ⟨_, hnone, -⟩ | hfirst := ih h
          · cases hnone
          · exact .inr (by omega)

/-- Where a logical line starts in plain code, nothing is held back. -/
theorem fresh_of_first {number : Nat} {coder texter : Scrubber} {buffer : Option Buffer}
    {raw : Text} {rest : List Text} {line : LogicalLine}
    (hbuffer : ∀ b ∈ buffer, b.line.first < number)
    (hmem : line ∈ ofLinesFrom number coder texter buffer (raw :: rest))
    (hfirst : line.first = number) (hplain : line.continues = false) :
    buffer = none ∧ (coder.inComment || coder.inLiteral) = false := by
  have hbehind {held : Option Buffer} (hheld : ∀ b ∈ held, b.line.first < number) :
      line ∉ ofLinesFrom (number + 1) (coder.scrub raw).2 (texter.scrub raw).2 held rest := by
    intro hmem
    rcases first_of_mem_ofLinesFrom hmem with ⟨b, hb, hsame⟩ | hlater
    · have hlt := hheld b hb
      omega
    · omega
  cases buffer with
  | some b =>
    have hb := hbuffer b rfl
    rw [ofLinesFrom_push] at hmem
    split at hmem
    · rcases List.mem_cons.mp hmem with rfl | hmem
      · exact absurd hfirst (Nat.ne_of_lt hb)
      · exact absurd hmem (hbehind (by simp))
    · exact absurd hmem (hbehind fun x hx => Option.some.inj hx ▸ hb)
  | none =>
    refine ⟨rfl, ?_⟩
    by_contra hcontinues
    have hsingle : (single number coder texter raw).continues = true :=
      Bool.not_eq_false _ ▸ hcontinues
    rw [ofLinesFrom_single, hsingle] at hmem
    rcases List.mem_cons.mp hmem with rfl | hmem
    · rw [hsingle] at hplain
      cases hplain
    · exact hbehind (by simp) hmem

/-- A logical line, and the line in its place once there is an attribute in front of a
declaration: the same line, or the declaration with the attribute in front of it. -/
structure Attributed (line line' : LogicalLine) : Prop where
  first_eq : line'.first = line.first
  last_eq : line'.last = line.last
  delta_eq : line'.braceDelta = line.braceDelta
  continues_eq : line'.continues = line.continues
  brace_eq : line'.code.contains '\x7b' = line.code.contains '\x7b'
  decl_eq : Code.stripAttributes line'.text = Code.stripAttributes line.text
  text_eq : line'.text = line.text ∨
    StartsDeclaration line.text ∧ ∃ rest, line'.text = '#' :: rest

theorem Attributed.refl (line : LogicalLine) : Attributed line line :=
  ⟨rfl, rfl, rfl, rfl, rfl, rfl, .inl rfl⟩

section Joined

variable {text code : Text} (h : Fronts text code)

include h

/-- A line that differs in nothing but the attribute. -/
theorem attributed_of_behind {line line' : LogicalLine}
    (hsame : line' = { line with text := line'.text, code := line'.code })
    (htext : Behind text line.text line'.text) (hcode : Behind code line.code line'.code)
    (hstarts : StartsDeclaration line.text) : Attributed line line' where
  first_eq := by rw [hsame]
  last_eq := by rw [hsame]
  delta_eq := by rw [hsame]
  continues_eq := by rw [hsame]
  brace_eq := contains_behind h hcode (by decide)
  decl_eq := stripAttributes_behind h htext
  text_eq := by
    obtain ⟨blanks, -, heq⟩ := htext
    obtain ⟨rest, hrest⟩ := List.head?_eq_some_iff.mp h.text_starts
    exact .inr ⟨hstarts, _, by rw [heq, hrest]; rfl⟩

/-- A line that is joined, without and with an attribute in front of its first piece. -/
structure Buffer.Attributed (text code : Text) (b b' : Buffer) : Prop where
  kind_eq : b'.kind = b.kind
  joined_eq : b'.joined = b.joined
  line_eq : b'.line = { b.line with text := b'.line.text, code := b'.line.code }
  text_behind : Behind text b.line.text b'.line.text
  code_behind : Behind code b.line.code b'.line.code
  opened_eq : b'.opened = b.opened + code.count '('
  closed_eq : b'.closed = b.closed + code.count '('
  /-- A signature is joined for its parentheses, so it has some. -/
  opened_pos : b.kind = .signature → 0 < b.opened
  starts : StartsDeclaration b.line.text

variable {b b' : Buffer}

theorem Buffer.Attributed.line (hb : b.Attributed text code b') :
    LogicalLine.Attributed b.line b'.line :=
  attributed_of_behind h hb.line_eq hb.text_behind hb.code_behind hb.starts

theorem Buffer.Attributed.push (hb : b.Attributed text code b') (number : Nat)
    (moreText moreCode : Text) :
    (b.push number moreText moreCode).Attributed text code (b'.push number moreText moreCode) where
  kind_eq := hb.kind_eq
  joined_eq := congrArg (· + 1) hb.joined_eq
  line_eq := by
    simp only [Buffer.push]
    rw [hb.line_eq]
  text_behind := hb.text_behind.append (trimmed_text h) moreText
  code_behind := hb.code_behind.append (trimmed_code h) moreCode
  opened_eq := by
    simp only [Buffer.push, hb.opened_eq]
    omega
  closed_eq := by
    simp only [Buffer.push, hb.closed_eq]
    omega
  opened_pos hkind := Nat.lt_of_lt_of_le (hb.opened_pos hkind) (Nat.le_add_right _ _)
  starts := hb.starts.append moreText

theorem Buffer.Attributed.isComplete_eq (hb : b.Attributed text code b') (lastCode : Text)
    (next : Option Text) : b'.isComplete lastCode next = b.isComplete lastCode next := by
  unfold Buffer.isComplete
  rw [hb.joined_eq, hb.kind_eq]
  cases hkind : b.kind with
  | classHead => rfl
  | signature =>
    have hopened : decide (0 < b'.opened) = decide (0 < b.opened) := by
      have hpos := hb.opened_pos hkind
      rw [hb.opened_eq, decide_eq_true hpos, decide_eq_true (Nat.add_pos_left hpos _)]
    have hbalanced : (b'.opened == b'.closed) = (b.opened == b.closed) := by
      rw [hb.opened_eq, hb.closed_eq, Bool.eq_iff_iff, beq_iff_eq, beq_iff_eq]
      omega
    simp only [hopened, hbalanced, hasSignatureEnd_behind h hb.code_behind,
      endsWithParen_behind h hb.code_behind]

/-- The reader holds the declaration back for the same reason, or not at all. -/
theorem pending?_behind {line line' : LogicalLine} (htext : Behind text line.text line'.text)
    (hcode : Behind code line.code line'.code) (next : Option Text) :
    pending? line' next = pending? line next := by
  have hpos : endsWithParen line.code = true → 0 < (Code.parenCounts line.code).2 :=
    count_pos_of_endsWithParen
  unfold pending?
  rw [stripAttributes_behind h htext, parenCounts_behind h hcode, endsWithParen_behind h hcode,
    contains_behind h hcode (by decide), contains_behind h hcode (by decide)]
  generalize Code.parenCounts line.code = counts at hpos
  obtain ⟨opened, closed⟩ := counts
  have hdangling : (decide (0 < opened + code.count '(') &&
        opened + code.count '(' == closed + code.count '(' && endsWithParen line.code &&
        startsReturnType next) =
      (decide (0 < opened) && opened == closed && endsWithParen line.code &&
        startsReturnType next) := by
    cases hends : endsWithParen line.code with
    | false => simp
    | true =>
      have hclosed : 0 < closed := hpos hends
      congr 2
      rw [Bool.eq_iff_iff]
      simp only [Bool.and_eq_true, decide_eq_true_eq, beq_iff_eq]
      omega
  simp only [hdangling, Nat.add_lt_add_iff_right]

theorem Buffer.attributed_start {line line' : LogicalLine} {next : Option Text} {kind : Pending}
    (hkind : pending? line next = some kind)
    (hsame : line' = { line with text := line'.text, code := line'.code })
    (htext : Behind text line.text line'.text) (hcode : Behind code line.code line'.code)
    (hstarts : StartsDeclaration line.text) :
    (Buffer.start kind line).Attributed text code (Buffer.start kind line') where
  kind_eq := rfl
  joined_eq := rfl
  line_eq := by
    simp only [Buffer.start]
    rw [hsame]
  text_behind := htext.trim (trimmed_text h)
  code_behind := hcode.trim (trimmed_code h)
  opened_eq := congrArg Prod.fst (parenCounts_behind h hcode)
  closed_eq := congrArg Prod.snd (parenCounts_behind h hcode)
  opened_pos hsignature := by
    have hkind' : kind = .signature := hsignature
    exact opened_pos_of_pending? (hkind' ▸ hkind)
  starts := hstarts.trim

/-- What is joined on, and all lines behind it. -/
theorem ofLinesFrom_buffer (hb : b.Attributed text code b') (number : Nat)
    (coder texter : Scrubber) (rest : List Text) :
    List.Forall₂ LogicalLine.Attributed (ofLinesFrom number coder texter (some b) rest)
      (ofLinesFrom number coder texter (some b') rest) := by
  induction rest generalizing b b' number coder texter with
  | nil => exact .cons (hb.line h) .nil
  | cons raw rest ih =>
    have hpush := hb.push h number (texter.scrub raw).1 (coder.scrub raw).1
    rw [ofLinesFrom_push, ofLinesFrom_push, hpush.isComplete_eq h]
    split
    · exact .cons (hpush.line h) (List.forall₂_same.mpr fun l _ => .refl l)
    · exact ih hpush _ _ _

/-- A line that starts a declaration, read in plain code, without and with the attribute. -/
theorem ofLinesFrom_behind (number : Nat) {line : Text}
    (hstarts : StartsDeclaration (Scrubber.scan true .code line).1) (rest : List Text) :
    List.Forall₂ LogicalLine.Attributed
      (ofLinesFrom number {} { keepLiterals := true } none (line :: rest))
      (ofLinesFrom number {} { keepLiterals := true } none ((text ++ ' ' :: line) :: rest)) := by
  have hscrub (keep : Bool) (s : Text) : ({ keepLiterals := keep } : Scrubber).scrub s =
      ((Scrubber.scan keep .code s).1,
        { keepLiterals := keep, mode := (Scrubber.scan keep .code s).2 }) := rfl
  have hscan (keep : Bool) : Scrubber.scan keep .code (text ++ ' ' :: line) =
      ((if keep then text else code) ++ ' ' :: (Scrubber.scan keep .code line).1,
        (Scrubber.scan keep .code line).2) := by
    rw [h.scan_eq, Scrubber.scan_code_cons (by decide)]
  have hblank : ∀ c ∈ [' '], Text.isBlank c = true := List.all_eq_true.mp rfl
  have htext : Behind text (single number {} { keepLiterals := true } line).text
      (single number {} { keepLiterals := true } (text ++ ' ' :: line)).text :=
    ⟨[' '], hblank, by simp [single, hscrub, hscan]⟩
  have hcode : Behind code (single number {} { keepLiterals := true } line).code
      (single number {} { keepLiterals := true } (text ++ ' ' :: line)).code :=
    ⟨[' '], hblank, by simp [single, hscrub, hscan]⟩
  have hsame : single number {} { keepLiterals := true } (text ++ ' ' :: line) =
      { single number {} { keepLiterals := true } line with
        text := (single number {} { keepLiterals := true } (text ++ ' ' :: line)).text
        code := (single number {} { keepLiterals := true } (text ++ ' ' :: line)).code } := by
    have hdelta := braceDelta_behind h hcode
    simp only [single] at hdelta ⊢
    rw [hdelta]
  have hmode (keep : Bool) : (({ keepLiterals := keep } : Scrubber).scrub (text ++ ' ' :: line)).2 =
      (({ keepLiterals := keep } : Scrubber).scrub line).2 := by
    rw [hscrub, hscrub, hscan]
  have hplain (s : Text) :
      (single number {} { keepLiterals := true } s).continues = false := rfl
  rw [ofLinesFrom_single, ofLinesFrom_single, pending?_behind h htext hcode, hplain, hplain,
    hmode false, hmode true]
  simp only [Bool.false_eq_true, if_false]
  split
  · rename_i kind hkind
    exact ofLinesFrom_buffer h (Buffer.attributed_start h hkind hsame htext hcode hstarts) _ _ _ _
  · exact .cons (attributed_of_behind h hsame htext hcode hstarts)
      (List.forall₂_same.mpr fun l _ => .refl l)

/-- Looking ahead from above finds no result type on the line, with the attribute or without. -/
theorem startsReturnType_nextLine_behind {keep : Bool} {line : Text}
    (hstarts : StartsDeclaration (Scrubber.scan keep .code line).1) (before after : List Text) :
    startsReturnType (nextLine (before ++ (text ++ ' ' :: line) :: after)) =
      startsReturnType (nextLine (before ++ line :: after)) := by
  obtain ⟨hline, hresult⟩ := hstarts.not_result
  obtain ⟨rest, hrest⟩ := List.head?_eq_some_iff.mp h.text_starts
  have hstart : Text.trimStart (text ++ ' ' :: line) = '#' :: (rest ++ ' ' :: line) := by
    rw [hrest]
    exact Text.trimStart_cons_of_not_blank (by decide) _
  have hresult' : startsReturnType (some (text ++ ' ' :: line)) = false := by
    rw [startsReturnType, Option.map_some, hstart]
    rfl
  have hline' : Text.trim (text ++ ' ' :: line) ≠ [] := by
    rw [Ne, Text.trim_eq_nil_iff, hstart]
    exact List.cons_ne_nil _ _
  unfold nextLine
  rw [List.find?_append, List.find?_append, List.find?_cons_of_pos (by simpa using hline'),
    List.find?_cons_of_pos (by simpa using hline)]
  cases before.find? fun l => !(Text.trim l).isEmpty with
  | some l => rfl
  | none => exact hresult'.trans hresult.symm

/-- An attribute in front of a declaration changes no logical line but the one that the
declaration starts, and that one as little as can be. -/
theorem ofLines_attributed {before after : List Text} {line : Text}
    (hstarts : StartsDeclaration (Scrubber.scan true .code line).1)
    (hfirst : ∃ l ∈ ofLines (before ++ line :: after),
      l.first = before.length + 1 ∧ l.continues = false) :
    List.Forall₂ LogicalLine.Attributed (ofLines (before ++ line :: after))
      (ofLines (before ++ (text ++ ' ' :: line) :: after)) := by
  obtain ⟨passed, held, hbefore, hread, hread'⟩ := ofLinesFrom_common
    (fun before => startsReturnType_nextLine_behind h hstarts before after) before 1 {}
    { keepLiterals := true } none
  obtain ⟨hpassed, hheld⟩ := hbefore (by simp)
  obtain ⟨l, hmem, hnumber, hplain⟩ := hfirst
  rw [Nat.add_comm before.length] at hnumber
  rw [ofLines, hread] at hmem ⊢
  rw [ofLines, hread']
  have hline := (List.mem_append.mp hmem).resolve_left fun hl =>
    absurd hnumber (Nat.ne_of_lt (hpassed l hl))
  obtain ⟨rfl, hfresh⟩ := fresh_of_first hheld hline hnumber hplain
  have hcoder := Scrubber.eq_fresh (Scrubber.after_keepLiterals {} before) hfresh
  have htexter : ({ keepLiterals := true } : Scrubber).after before = { keepLiterals := true } :=
    (Scrubber.after_keeping (s := {}) rfl before).trans (congrArg Scrubber.keeping hcoder)
  rw [hcoder, htexter]
  exact List.rel_append (List.forall₂_same.mpr fun l _ => .refl l)
    (ofLinesFrom_behind h _ hstarts after)

end Joined

end PhpLint.LogicalLine
