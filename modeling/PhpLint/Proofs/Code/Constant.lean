import Mathlib.Data.Bool.AllAny
import PhpLint.Proofs.Code.Names
import PhpLint.Proofs.Code.Split
import PhpLint.Proofs.Code.Uncommented
import PhpLint.Proofs.Text.Padding

/-!
Constant expressions on one line, as they are written: numbers, names and quoted strings, in
brackets or not, with operators between them. A scrubber takes nothing out of such a text but
the contents of quotes, and outside of quotes it has neither a brace nor a semicolon. Without
angle brackets it is one part of any list it stands in.
-/

namespace PhpLint.Code

/-- What stands between two quotes on a line: the quote itself only behind a backslash. -/
inductive IsQuoted (q : Char) : Text → Prop where
  | nil : IsQuoted q []
  | char {c : Char} {s : Text} (hc : c ∉ [q, '\\', '\n']) (h : IsQuoted q s) : IsQuoted q (c :: s)
  | escaped {c : Char} {s : Text} (hc : c ≠ '\n') (h : IsQuoted q s) :
      IsQuoted q ('\\' :: c :: s)

def plainOperators : List Text := ["+", "-", "*", "|", "&"].map String.toList

def angleOperators : List Text := ["<<", ">>", "<", ">"].map String.toList

/-- The operators of constant expressions. -/
def operators : List Text := plainOperators ++ angleOperators

/-- White space within a line. -/
def IsGap (s : Text) : Prop := ∀ c ∈ s, Text.isBlank c = true ∧ c ≠ '\n'

instance (s : Text) : Decidable (IsGap s) := List.decidableBAll _ s

/-- The parentheses and the square brackets. -/
def brackets : List (Char × Char) := [('(', ')'), ('[', ']')]

/-- What may stand between two expressions: an operator, in a list a comma, or nothing, as in
front of the brackets of an index. -/
def joints (ops : List Text) (listed : Bool) : List Text :=
  [] :: ops ++ if listed then [[',']] else []

/-- Expressions with the given operators, and lists of them as they stand between brackets. -/
inductive IsConstant (ops : List Text) : (listed : Bool) → Text → Prop where
  | word {listed : Bool} {s : Text} (hne : s ≠ []) (hs : ∀ c ∈ s, Text.isIdentPart c = true) :
      IsConstant ops listed s
  | quoted {listed : Bool} {q : Char} {s : Text} (hq : q = '\'' ∨ q = '"') (hs : IsQuoted q s) :
      IsConstant ops listed (q :: (s ++ [q]))
  | signed {listed : Bool} {sign : Char} {s : Text} (hsign : sign ∈ ['+', '-'])
      (h : IsConstant ops listed s) : IsConstant ops listed (sign :: s)
  | empty {listed : Bool} {pair : Char × Char} {gap : Text} (hpair : pair ∈ brackets)
      (hgap : IsGap gap) : IsConstant ops listed (pair.1 :: (gap ++ [pair.2]))
  | bracketed {listed : Bool} {pair : Char × Char} {front s back : Text} (hpair : pair ∈ brackets)
      (hfront : IsGap front) (hback : IsGap back) (h : IsConstant ops true s) :
      IsConstant ops listed (pair.1 :: (front ++ s ++ back ++ [pair.2]))
  | joined {listed : Bool} {s front joint back t : Text} (hjoint : joint ∈ joints ops listed)
      (hfront : IsGap front) (hback : IsGap back) (hs : IsConstant ops listed s)
      (ht : IsConstant ops listed t) : IsConstant ops listed (s ++ front ++ joint ++ back ++ t)

/-- A text that stands in plain code on a line. Nothing of it is a comment or a heredoc, its
quotes are closed, and outside of them it has neither a brace nor a semicolon. -/
structure Inline (s : Text) : Prop where
  single_line : '\n' ∉ s
  quotes : ∀ n : Nesting, n.quotes = .outside → (s.foldl Nesting.step n).quotes = .outside
  unbroken : ∀ n : Nesting, n.quotes = .outside → Unbroken ';' n s
  uncommented : ∃ code, (∀ c ∈ code, c ∉ ['\x7b', '\x7d']) ∧ ∀ t tcode,
    Scrubber.Uncommented .code t tcode → Scrubber.Uncommented .code (s ++ t) (code ++ tcode)

theorem Nesting.quotes_step {n : Nesting} (h : n.quotes = .outside) {c : Char}
    (hc : c ∉ ['\'', '"']) : (n.step c).quotes = .outside := by
  simp only [List.mem_cons, List.not_mem_nil, or_false, not_or] at hc
  simp [Nesting.step, h, QuoteState.step, hc]

namespace Inline

variable {s t : Text}

theorem nil : Inline [] where
  single_line := by simp
  quotes _ h := h
  unbroken _ _ := rfl
  uncommented := ⟨[], by simp, fun _ _ h => h⟩

theorem append (hs : Inline s) (ht : Inline t) : Inline (s ++ t) where
  single_line := by simp [hs.single_line, ht.single_line]
  quotes n hn := by
    rw [List.foldl_append]
    exact ht.quotes _ (hs.quotes n hn)
  unbroken n hn := unbroken_append_iff.mpr ⟨hs.unbroken n hn, ht.unbroken _ (hs.quotes n hn)⟩
  uncommented := by
    obtain ⟨code, hcode, hscan⟩ := hs.uncommented
    obtain ⟨tcode, htcode, htscan⟩ := ht.uncommented
    refine ⟨code ++ tcode, List.forall_mem_append.mpr ⟨hcode, htcode⟩, fun u ucode hu => ?_⟩
    rw [List.append_assoc, List.append_assoc]
    exact hscan _ _ (htscan u ucode hu)

/-- A character that is none of those that start a quote, a comment or a heredoc. -/
theorem cons {c : Char} (hc : c ∉ ['\n', ';', '\'', '"', '`', '\x7b', '\x7d'])
    (hopens : ∀ t, Scrubber.opensComment (c :: (s ++ t)) = false) (hs : Inline s) :
    Inline (c :: s) := by
  simp only [List.mem_cons, List.not_mem_nil, or_false, not_or] at hc
  have hquote : c ∉ ['\'', '"'] := by simp [hc]
  constructor
  · simp [Ne.symm hc.1, hs.single_line]
  · intro n hn
    exact hs.quotes _ (Nesting.quotes_step hn hquote)
  · intro n hn
    refine unbroken_cons_iff.mpr ⟨?_, hs.unbroken _ (Nesting.quotes_step hn hquote)⟩
    simp [Nesting.separates, hc]
  · obtain ⟨code, hcode, hscan⟩ := hs.uncommented
    refine ⟨c :: code, List.forall_mem_cons.mpr ⟨by simp [hc], hcode⟩, fun t tcode ht => ?_⟩
    exact .char (by simp [Scrubber.modeAfter, hc]) (hopens t) (hscan t tcode ht)

/-- The characters that mean something to a scrubber, the braces and the semicolon. -/
def signs : List Char := ['\n', ';', '\'', '"', '`', '\x7b', '\x7d', '/', '#', '<']

def isPlain (c : Char) : Bool := !signs.contains c

theorem of_plain (h : ∀ c ∈ s, isPlain c = true) : Inline s := by
  induction s with
  | nil => exact nil
  | cons c s ih =>
    rw [List.forall_mem_cons] at h
    have hc := h.1
    simp only [isPlain, signs, Bool.not_eq_true', List.contains_eq_mem, decide_eq_false_iff_not,
      List.mem_cons, List.not_mem_nil, or_false, not_or] at hc
    refine cons (by simp [hc]) (fun t => ?_) (ih h.2)
    simp [Scrubber.opensComment, hc]

/-- The signs are in none of the classes of characters that names are made of. -/
theorem of_class {p : Char → Bool} (hp : signs.any p = false) (h : ∀ c ∈ s, p c = true) :
    Inline s := by
  refine .of_plain fun c hc => ?_
  simpa [isPlain] using Text.not_mem_of_class (h c hc) hp

/-- An angle bracket with fewer than two more behind it opens no heredoc. -/
theorem angle (hs : Inline s) (h : ∀ t, ¬ ['<', '<'] <+: s ++ t) : Inline ('<' :: s) := by
  refine cons (by decide) (fun t => Scrubber.opensComment_eq_false_iff.mpr ?_) hs
  exact .other (by simp) (by simp) (by decide) fun more _ hrest => h t ⟨more, hrest.symm⟩

end Inline

namespace IsQuoted

variable {q : Char} {s : Text}

/-- Plain characters in front of what stands between the quotes. -/
theorem plain_append (h : IsQuoted q s) {front : Text} (hfront : ∀ c ∈ front, c ∉ [q, '\\', '\n']) :
    IsQuoted q (front ++ s) := by
  induction front with
  | nil => exact h
  | cons c front ih =>
    rw [List.forall_mem_cons] at hfront
    exact .char hfront.1 (ih hfront.2)

theorem not_mem_newline (h : IsQuoted q s) : '\n' ∉ s := by
  induction h with
  | nil => simp
  | char hc h ih =>
    simp only [List.mem_cons, List.not_mem_nil, or_false, not_or] at hc
    simp [Ne.symm hc.2.2, ih]
  | escaped hc h ih => simp [Ne.symm hc, ih]

/-- Between the quotes nothing is counted. -/
theorem inside (h : IsQuoted q s) (sep : Char) {n : Nesting} (hn : n.quotes = .inside q) :
    (s.foldl Nesting.step n).quotes = .inside q ∧ (s.foldl Nesting.step n).depth = n.depth ∧
      Unbroken sep n s := by
  have hkeep {n : Nesting} {c : Char} (hn : n.quotes ≠ .outside) :
      (n.step c).depth = n.depth ∧ n.separates sep c = false := by
    simp [Nesting.step, Nesting.separates, Nesting.atTop, hn]
  induction h generalizing n with
  | nil => exact ⟨hn, rfl, rfl⟩
  | @char c s hc h ih =>
    simp only [List.mem_cons, List.not_mem_nil, or_false, not_or] at hc
    have hstep : (n.step c).quotes = .inside q := by
      simp [Nesting.step, hn, QuoteState.step, hc]
    obtain ⟨hdepth, hseparates⟩ := hkeep (n := n) (c := c) (by simp [hn])
    obtain ⟨hquotes, hsame, hmore⟩ := ih hstep
    exact ⟨hquotes, hsame.trans hdepth, unbroken_cons_iff.mpr ⟨hseparates, hmore⟩⟩
  | @escaped c s hc h ih =>
    have hhidden : (n.step '\\').quotes = .escaped q := by
      simp [Nesting.step, hn, QuoteState.step]
    have hstep : ((n.step '\\').step c).quotes = .inside q := by
      simp [Nesting.step, hn, QuoteState.step]
    obtain ⟨hfirst, hback⟩ := hkeep (n := n) (c := '\\') (by simp [hn])
    obtain ⟨hsecond, hseparates⟩ := hkeep (n := n.step '\\') (c := c) (by simp [hhidden])
    obtain ⟨hquotes, hsame, hmore⟩ := ih hstep
    refine ⟨hquotes, hsame.trans (hsecond.trans hfirst), ?_⟩
    exact unbroken_cons_iff.mpr ⟨hback, unbroken_cons_iff.mpr ⟨hseparates, hmore⟩⟩

/-- A quoted string leaves the brackets as they were, and no separator is seen in it. -/
theorem around (h : IsQuoted q s) (hq : q = '\'' ∨ q = '"') (sep : Char) {n : Nesting}
    (hn : n.quotes = .outside) :
    ((q :: (s ++ [q])).foldl Nesting.step n).quotes = .outside ∧
      ((q :: (s ++ [q])).foldl Nesting.step n).depth = n.depth ∧
      Unbroken sep n (q :: (s ++ [q])) := by
  have hopens : (n.step q).quotes = .inside q ∧ (n.step q).depth = n.depth := by
    rcases hq with rfl | rfl <;> simp [Nesting.step, hn, QuoteState.step, isOpening, isClosing]
  obtain ⟨hquotes, hdepth, hunbroken⟩ := h.inside sep hopens.1
  have hback : q ≠ '\\' := by
    rcases hq with rfl | rfl <;> decide
  simp only [List.foldl_cons, List.foldl_append, List.foldl_nil, unbroken_cons_iff,
    unbroken_append_iff]
  generalize hlast : s.foldl Nesting.step (n.step q) = last at hquotes hdepth ⊢
  refine ⟨?_, ?_, ?_, hunbroken, ?_, rfl⟩
  · simp [Nesting.step, hquotes, QuoteState.step, hback]
  · rw [← hopens.2, ← hdepth]
    simp [Nesting.step, hquotes]
  · rcases hq with rfl | rfl <;> simp [Nesting.separates]
  · simp [Nesting.separates, Nesting.atTop, hquotes]

theorem uncommented (h : IsQuoted q s) (hq : q = '\'' ∨ q = '"') {t tcode : Text}
    (ht : Scrubber.Uncommented .code t tcode) :
    Scrubber.Uncommented (.literal q) (s ++ q :: t) (q :: tcode) := by
  induction h with
  | nil => exact .closes hq ht
  | char hc h ih =>
    simp only [List.mem_cons, List.not_mem_nil, or_false, not_or] at hc
    exact .quoted ⟨hc.1, hc.2.1⟩ ih
  | escaped hc h ih => exact .escaped ih

theorem inline (h : IsQuoted q s) (hq : q = '\'' ∨ q = '"') : Inline (q :: (s ++ [q])) where
  single_line := by
    have hline : q ≠ '\n' := by
      rcases hq with rfl | rfl <;> decide
    simp [Ne.symm hline, h.not_mem_newline]
  quotes n hn := (h.around hq ';' hn).1
  unbroken n hn := (h.around hq ';' hn).2.2
  uncommented := by
    refine ⟨[q, q], ?_, fun t tcode ht => ?_⟩
    · rcases hq with rfl | rfl <;> exact List.all_iff_forall_prop.mp (by decide)
    · have htail := Scrubber.Uncommented.opens hq (h.uncommented hq ht)
      simpa using htail

end IsQuoted

theorem IsGap.inline {s : Text} (h : IsGap s) : Inline s := by
  refine .of_plain fun c hc => ?_
  obtain ⟨hblank, hline⟩ := h c hc
  have hsigns : c ∉ [';', '\'', '"', '`', '\x7b', '\x7d', '/', '#', '<'] :=
    Text.not_mem_of_class hblank (by decide)
  simp only [List.mem_cons, List.not_mem_nil, or_false, not_or] at hsigns
  simp [Inline.isPlain, Inline.signs, hline, hsigns]

theorem Inline.append_joint {joint s : Text} (hjoint : joint ∈ joints operators true)
    (h : Inline s) (hstart : ∃ c ∈ s.head?, c ≠ '<') : Inline (joint ++ s) := by
  have hhead : ∀ t u, s ++ t ≠ '<' :: u := by
    obtain ⟨c, hc, hne⟩ := hstart
    obtain ⟨rest, rfl⟩ := List.head?_eq_some_iff.mp (Option.mem_def.mp hc)
    exact fun t u heq => hne (List.cons.inj heq).1
  by_cases hplain : joint.all isPlain = true
  · exact (of_plain (List.all_eq_true.mp hplain)).append h
  · have hangle : joint = ['<'] ∨ joint = ['<', '<'] := by
      have hall : ∀ joint ∈ joints operators true, joint.all isPlain = true ∨ joint = ['<'] ∨
          joint = ['<', '<'] := by decide
      exact (hall joint hjoint).resolve_left hplain
    have hone : Inline ('<' :: s) := h.angle fun t ⟨u, hu⟩ => hhead t _ hu.symm
    rcases hangle with rfl | rfl
    · exact hone
    · exact hone.angle fun t ⟨u, hu⟩ => hhead t u (List.cons.inj hu).2.symm

namespace IsConstant

variable {ops : List Text} {listed : Bool} {s : Text}

theorem joint_mem (hops : ∀ op ∈ ops, op ∈ operators) {joint : Text}
    (h : joint ∈ joints ops listed) : joint ∈ joints operators true := by
  simp only [joints, List.mem_append, List.mem_cons] at h ⊢
  rcases h with (rfl | hop) | hcomma
  · exact .inl (.inl rfl)
  · exact .inl (.inr (hops joint hop))
  · cases listed with
    | true => exact .inr hcomma
    | false => cases hcomma

theorem facts_brackets {pair : Char × Char} (hpair : pair ∈ brackets) {inner : Text}
    (h : Inline inner) :
    Text.Trimmed (pair.1 :: (inner ++ [pair.2])) ∧ Inline (pair.1 :: (inner ++ [pair.2])) ∧
      ∃ c ∈ (pair.1 :: (inner ++ [pair.2])).head?, c ≠ '<' := by
  obtain ⟨hopen, hclose, hangle, hplain⟩ : Text.isBlank pair.1 = false ∧
      Text.isBlank pair.2 = false ∧ pair.1 ≠ '<' ∧ [pair.1, pair.2].all Inline.isPlain = true := by
    rcases List.mem_pair.mp hpair with rfl | rfl <;> decide
  rw [List.all_cons, List.all_cons, List.all_nil, Bool.and_true, Bool.and_eq_true] at hplain
  have hfront : Inline [pair.1] := .of_plain (by simp [hplain.1])
  have hback : Inline [pair.2] := .of_plain (by simp [hplain.2])
  refine ⟨?_, hfront.append (h.append hback), pair.1, rfl, hangle⟩
  simpa using (Text.Trimmed.singleton hopen).around (.singleton hclose) inner

theorem head_ne_append {back t : Text} (hback : IsGap back) (ht : ∃ c ∈ t.head?, c ≠ '<') :
    ∃ c ∈ (back ++ t).head?, c ≠ '<' := by
  cases back with
  | nil => exact ht
  | cons c back =>
    refine ⟨c, rfl, ?_⟩
    rintro rfl
    cases (hback '<' List.mem_cons_self).1

/-- A constant expression starts and ends with something other than white space, stands in
plain code on a line, and does not start with an angle bracket. -/
theorem facts (hops : ∀ op ∈ ops, op ∈ operators) (h : IsConstant ops listed s) :
    Text.Trimmed s ∧ Inline s ∧ ∃ c ∈ s.head?, c ≠ '<' := by
  induction h with
  | @word listed s hne hs =>
    refine ⟨.of_not_blank hne fun c hc => Text.isBlank_of_isIdentPart (hs c hc),
      .of_class rfl hs, s.head hne, List.head?_eq_some_head hne, ?_⟩
    intro hangle
    have hident := hs _ (List.head_mem hne)
    rw [hangle] at hident
    cases hident
  | @quoted listed q s hq hs =>
    have hends : Text.isBlank q = false ∧ q ≠ '<' := by
      rcases hq with rfl | rfl <;> decide
    refine ⟨⟨⟨q, rfl, hends.1⟩, q, ?_, hends.1⟩, hs.inline hq, q, rfl, hends.2⟩
    simp [List.getLast?_cons]
  | @signed listed sign s hsign h ih =>
    have hends : Text.isBlank sign = false ∧ sign ≠ '<' ∧ Inline.isPlain sign = true := by
      rcases List.mem_pair.mp hsign with rfl | rfl <;> decide
    have hfront : Inline [sign] := .of_plain (by simp [hends.2.2])
    refine ⟨?_, hfront.append ih.2.1, sign, rfl, hends.2.1⟩
    simpa using (Text.Trimmed.singleton hends.1).around ih.1 []
  | empty hpair hgap => exact facts_brackets hpair hgap.inline
  | bracketed hpair hfront hback h ih =>
    exact facts_brackets hpair ((hfront.inline.append ih.2.1).append hback.inline)
  | @joined listed s front joint back t hjoint hfront hback hs ht ihs iht =>
    obtain ⟨htrim, hinline, c, hc, hne⟩ := ihs
    have hjoined : Inline (joint ++ (back ++ t)) := by
      refine (hback.inline.append iht.2.1).append_joint (joint_mem hops hjoint) ?_
      exact head_ne_append hback iht.2.2
    refine ⟨?_, ?_, c, ?_, hne⟩
    · simpa using htrim.around iht.1 (front ++ joint ++ back)
    · simpa using (hinline.append hfront.inline).append hjoined
    · simp [Option.mem_def.mp hc]

end IsConstant

/-- Outside of quotes, and in a list only within brackets, the text leaves the brackets as they
were, and no comma is seen in it. -/
def Level (listed : Bool) (s : Text) : Prop :=
  ∀ n : Nesting, n.quotes = .outside → (listed = true → 0 < n.depth) →
    (s.foldl Nesting.step n).quotes = .outside ∧ (s.foldl Nesting.step n).depth = n.depth ∧
      Unbroken ',' n s

namespace Level

variable {listed : Bool} {s t : Text}

theorem nil : Level listed [] := fun _ hn _ => ⟨hn, rfl, rfl⟩

theorem append (hs : Level listed s) (ht : Level listed t) : Level listed (s ++ t) := by
  intro n hn hdeep
  obtain ⟨hquotes, hdepth, hunbroken⟩ := hs n hn hdeep
  obtain ⟨hquotes', hdepth', hunbroken'⟩ := ht _ hquotes (by rwa [hdepth])
  rw [List.foldl_append]
  exact ⟨hquotes', hdepth'.trans hdepth, unbroken_append_iff.mpr ⟨hunbroken, hunbroken'⟩⟩

theorem of_plain (h : ∀ c ∈ s, c ∉ nestingChars ∧ (c = ',' → listed = true)) :
    Level listed s := by
  induction s with
  | nil => exact nil
  | cons c s ih =>
    rw [List.forall_mem_cons] at h
    obtain ⟨⟨hc, hcomma⟩, hs⟩ := h
    intro n hn hdeep
    simp only [nestingChars, List.mem_cons, List.not_mem_nil, or_false, not_or] at hc
    have hquotes : (n.step c).quotes = .outside := Nesting.quotes_step hn (by simp [hc])
    have hdepth : (n.step c).depth = n.depth := by
      simp [Nesting.step, hn, isOpening, isClosing, hc]
    have hseparates : n.separates ',' c = false := by
      by_contra hsep
      rw [Bool.not_eq_false, Nesting.separates_iff] at hsep
      have htop := hsep.2.1
      have hpos := hdeep (hcomma hsep.1)
      simp only [Nesting.atTop, Bool.and_eq_true, beq_iff_eq] at htop
      omega
    obtain ⟨hlast, hsame, hunbroken⟩ := ih hs (n.step c) hquotes (by rwa [hdepth])
    exact ⟨hlast, hsame.trans hdepth, unbroken_cons_iff.mpr ⟨hseparates, hunbroken⟩⟩

theorem of_class {p : Char → Bool} (hp : (',' :: nestingChars).any p = false)
    (h : ∀ c ∈ s, p c = true) : Level listed s := by
  refine .of_plain fun c hc => ?_
  obtain ⟨hplain, hcomma⟩ := plain_of_class hp (h c hc)
  exact ⟨hplain, fun hsep => absurd hsep hcomma⟩

theorem around {pair : Char × Char} (hpair : pair ∈ brackets) (h : Level true s) :
    Level listed (pair.1 :: (s ++ [pair.2])) := by
  intro n hn hdeep
  have hopen : (n.step pair.1).quotes = .outside ∧ (n.step pair.1).depth = n.depth + 1 ∧
      n.separates ',' pair.1 = false := by
    rcases List.mem_pair.mp hpair with rfl | rfl
    all_goals
      simp [Nesting.step, hn, QuoteState.step, isOpening, Nesting.separates]
  obtain ⟨hquotes, hdepth, hunbroken⟩ := h _ hopen.1 (fun _ => by omega)
  have hback (last : Nesting) (hlast : last.quotes = .outside) :
      (last.step pair.2).quotes = .outside ∧ (last.step pair.2).depth = last.depth - 1 ∧
        last.separates ',' pair.2 = false := by
    rcases List.mem_pair.mp hpair with rfl | rfl
    all_goals
      simp [Nesting.step, hlast, QuoteState.step, isOpening, isClosing, Nesting.separates]
  obtain ⟨hend, hless, hclose⟩ := hback _ hquotes
  simp only [List.foldl_cons, List.foldl_append, List.foldl_nil, unbroken_cons_iff,
    unbroken_append_iff]
  exact ⟨hend, by omega, hopen.2.2, hunbroken, hclose, rfl⟩

end Level

theorem IsGap.level {s : Text} (h : IsGap s) (listed : Bool) : Level listed s :=
  .of_class (by decide) fun c hc => (h c hc).1

namespace IsConstant

variable {listed : Bool} {s : Text}

theorem level (h : IsConstant plainOperators listed s) : Level listed s := by
  induction h with
  | word hne hs =>
    exact .of_class (by decide) hs
  | quoted hq hs => exact fun n hn _ => hs.around hq ',' hn
  | signed hsign h ih =>
    have hall : ∀ sign ∈ ['+', '-'], sign ∉ nestingChars ∧ sign ≠ ',' :=
      List.all_iff_forall_prop.mp (by decide)
    obtain ⟨hplain, hcomma⟩ := hall _ hsign
    exact (Level.of_plain (s := [_]) (by simp [hplain, hcomma])).append ih
  | empty hpair hgap => exact (hgap.level true).around hpair
  | bracketed hpair hfront hback h ih =>
    exact (((hfront.level true).append ih).append (hback.level true)).around hpair
  | @joined listed s front joint back t hjoint hfront hback hs ht ihs iht =>
    have hplain : Level listed joint := by
      have hall : ((joints plainOperators listed).all fun joint =>
          joint.all fun c => decide (c ∉ nestingChars ∧ (c = ',' → listed = true))) = true := by
        cases listed <;> decide
      exact .of_plain (List.all_iff_forall_prop.mp (List.all_eq_true.mp hall joint hjoint))
    exact (((ihs.append (hfront.level _)).append hplain).append (hback.level _)).append iht

/-- Without angle brackets, an expression is one part of the list it stands in. -/
theorem isPart (h : IsConstant plainOperators false s) : IsPart ',' {} s := by
  obtain ⟨hquotes, hdepth, hunbroken⟩ := h.level {} rfl (by simp)
  exact ⟨hunbroken, by simp [Nesting.atTop, hquotes, hdepth]⟩

end IsConstant

/-- A literal between single quotes, without quotes, backslashes or line breaks inside. -/
def IsLiteral (d : Text) : Prop :=
  ∃ t, d = '\'' :: (t ++ ['\'']) ∧ ∀ c ∈ t, c ∉ ['\'', '\\', '\n']

theorem IsLiteral.isConstant {d : Text} (h : IsLiteral d) (ops : List Text) :
    IsConstant ops false d := by
  obtain ⟨t, rfl, ht⟩ := h
  have hquoted := IsQuoted.nil.plain_append ht
  rw [List.append_nil] at hquoted
  exact .quoted (.inl rfl) hquoted

end PhpLint.Code
