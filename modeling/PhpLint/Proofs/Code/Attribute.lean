import PhpLint.Proofs.Code.Names
import PhpLint.Proofs.Code.Split
import PhpLint.Proofs.Code.Uncommented
import PhpLint.Proofs.Declaration.Suffix

/-!
Attributes in front of a declaration, on its line. The text of such an attribute is seen by
the scrubbers, which keep it or empty its quotes, and by the reader of declarations, which
skips it. Both pass over it and read on as if the line started behind it; what is left of it
as code has as many opening as closing parentheses and neither braces nor semicolons.
-/

namespace PhpLint.Code

/-- The characters that do not stand in the arguments of an attribute, outside of quotes. -/
def foreign : List Char := ['(', ')', '\x7b', '\x7d', ';', '`', '#']

/-- Whether a text starts as a comment or a heredoc does, a comment with a hash apart. -/
def startsForeign (s : Text) : Bool := ["//", "/*", "<<<"].any (·.toList.isPrefixOf s)

/-- Whether the arguments of an attribute stand on one line and keep to themselves: quotes are
closed and square brackets match, and outside quotes there are no other brackets, no
semicolon, no backtick, and nothing that starts a comment or a heredoc. -/
def isArgumentsFrom (depth : Nat) (quotes : QuoteState) : Text → Bool
  | [] => depth == 0 && quotes == .outside
  | c :: s =>
    if quotes = .outside then
      decide (c ∉ foreign) && !startsForeign (c :: s) && !(c == ']' && depth == 0) &&
        isArgumentsFrom (if c = '[' then depth + 1 else if c = ']' then depth - 1 else depth)
          (quotes.step c) s
    else isArgumentsFrom depth (quotes.step c) s

/-- An attribute as it is written: its name, and its arguments if there is a list of them. -/
structure Attribute where
  name : Text
  arguments : Option Text := none

namespace Attribute

/-- The text of a list of arguments. -/
def listed (arguments : Option Text) : Text :=
  match arguments with
  | some s => '(' :: (s ++ [')'])
  | none => []

def text (a : Attribute) : Text := '#' :: '[' :: (a.name ++ (listed a.arguments ++ [']']))

/-- Letters, digits, underscores, backslashes, and all characters beyond ASCII. -/
def isNameChar (c : Char) : Bool := isQualifiedPart c || decide (0x7f < c.toNat)

/-- The attribute has a qualified name, and arguments that keep to themselves. -/
structure IsInline (a : Attribute) : Prop where
  name : ∀ c ∈ a.name, isNameChar c = true
  arguments : ∀ s ∈ a.arguments, isArgumentsFrom 0 .outside s = true

instance (a : Attribute) : Decidable a.IsInline :=
  decidable_of_iff (a.name.all isNameChar = true ∧
      ∀ s ∈ a.arguments, isArgumentsFrom 0 .outside s = true)
    ⟨fun ⟨hname, harguments⟩ => ⟨List.all_eq_true.mp hname, harguments⟩,
      fun h => ⟨List.all_eq_true.mpr h.name, h.arguments⟩⟩

end Attribute

section Closing

variable {depth : Nat} {quotes : QuoteState} {c : Char} {s t : Text}

/-- What stands behind the bracket that closes the innermost of some open ones. -/
def behindBracket? (depth : Nat) (quotes : QuoteState) (s : Text) : Option Text :=
  (closeFrom '[' ']' depth quotes s).map Prod.snd

theorem behindBracket?_cons (h : ¬ (quotes = .outside ∧ c = ']' ∧ depth ≤ 1)) :
    behindBracket? depth quotes (c :: s) =
      behindBracket?
        (if quotes ≠ .outside then depth
          else if c = '[' then depth + 1 else if c = ']' then depth - 1 else depth)
        (quotes.step c) s := by
  rw [behindBracket?, closeFrom, if_neg h, Option.map_map]
  rfl

theorem behindBracket?_of_plain (h : ∀ c ∈ s, c ∉ ['[', ']', '\'', '"']) :
    behindBracket? depth .outside (s ++ t) = behindBracket? depth .outside t := by
  induction s with
  | nil => rfl
  | cons c s ih =>
    rw [List.forall_mem_cons] at h
    obtain ⟨hc, hs⟩ := h
    simp only [List.mem_cons, List.not_mem_nil, or_false, not_or] at hc
    rw [List.cons_append, behindBracket?_cons (by simp [hc])]
    simpa [QuoteState.step, hc] using ih hs

/-- The brackets of arguments match, so the one that closes the attribute is behind them. -/
theorem behindBracket?_arguments (h : isArgumentsFrom depth quotes s = true) (t : Text) :
    behindBracket? (depth + 1) quotes (s ++ t) = behindBracket? 1 .outside t := by
  induction s generalizing depth quotes with
  | nil =>
    simp only [isArgumentsFrom, Bool.and_eq_true, beq_iff_eq] at h
    obtain ⟨rfl, rfl⟩ := h
    rfl
  | cons c s ih =>
    rw [isArgumentsFrom] at h
    split at h
    · rename_i houtside
      simp only [Bool.and_eq_true, Bool.not_eq_true', Bool.and_eq_false_iff, beq_eq_false_iff_ne]
        at h
      obtain ⟨⟨-, hclose⟩, hmore⟩ := h
      have hopen : ¬ (quotes = .outside ∧ c = ']' ∧ depth + 1 ≤ 1) := by
        rintro ⟨-, rfl, hdepth⟩
        exact hclose.elim (· rfl) (· (by omega))
      rw [List.cons_append, behindBracket?_cons hopen, ← ih hmore]
      congr 1
      simp only [houtside, ne_eq, not_true_eq_false, if_false]
      split
      · rfl
      · split
        · rename_i hright
          have hdepth : depth ≠ 0 := fun hzero => hclose.elim (· hright) (· hzero)
          omega
        · rfl
    · rename_i hinside
      rw [List.cons_append, behindBracket?_cons (fun hclose => hinside hclose.1), if_pos hinside]
      exact ih h

end Closing

section Scrubbed

open Scrubber (Uncommented opensComment modeAfter)

variable {depth : Nat} {quotes : QuoteState} {s t code : Text}

theorem opensComment_of_starts {c : Char} (hhash : c ≠ '#')
    (hstarts : startsForeign (c :: s) = false) : opensComment (c :: s) = false := by
  unfold opensComment
  split <;> simp_all [startsForeign, List.isPrefixOf]

/-- How the rest of some arguments is read by a scrubber that is in such quotes. Behind a
backslash the scrubber has not moved on from the backslash. -/
def ScrubsTo (quotes : QuoteState) (s code : Text) : Prop :=
  match quotes with
  | .outside => Uncommented .code s code
  | .inside q => Uncommented (.literal q) s code
  | .escaped q => Uncommented (.literal q) ('\\' :: s) code

theorem scrubsTo_arguments (hmarked : quotes.Marked) (h : isArgumentsFrom depth quotes s = true) :
    ∃ code, ScrubsTo quotes s code ∧ ∀ c ∈ code, c ∉ foreign := by
  induction s generalizing depth quotes with
  | nil =>
    simp only [isArgumentsFrom, Bool.and_eq_true, beq_iff_eq] at h
    obtain ⟨-, rfl⟩ := h
    exact ⟨[], .nil, by simp⟩
  | cons c s ih =>
    rw [isArgumentsFrom] at h
    split at h
    · rename_i houtside
      subst houtside
      simp only [Bool.and_eq_true, Bool.not_eq_true', decide_eq_true_eq] at h
      obtain ⟨⟨⟨hforeign, hstarts⟩, -⟩, hmore⟩ := h
      obtain ⟨code, hcode, hplain⟩ := ih (hmarked.step c) hmore
      refine ⟨c :: code, ?_, List.forall_mem_cons.mpr ⟨hforeign, hplain⟩⟩
      simp only [foreign, List.mem_cons, List.not_mem_nil, or_false, not_or] at hforeign
      refine Scrubber.Uncommented.code_cons (opensComment_of_starts (by simp [hforeign]) hstarts)
        (by simp [hforeign]) ?_
      by_cases hquote : c = '\'' ∨ c = '"'
      · rw [QuoteState.step, if_pos hquote] at hcode
        rcases hquote with rfl | rfl <;> exact hcode
      · rw [QuoteState.step, if_neg hquote] at hcode
        rw [not_or] at hquote
        simpa [modeAfter, hquote, hforeign, ScrubsTo] using hcode
    · rename_i hinside
      obtain ⟨code, hcode, hplain⟩ := ih (hmarked.step c) h
      cases quotes with
      | outside => exact absurd rfl hinside
      | escaped q => exact ⟨code, .escaped hcode, hplain⟩
      | inside q =>
        rw [QuoteState.step] at hcode
        split at hcode
        · rename_i hescape
          exact ⟨code, hescape ▸ hcode, hplain⟩
        · rename_i hplainChar
          split at hcode
          · rename_i hclose
            subst hclose
            have hquote : c = '\'' ∨ c = '"' := hmarked
            refine ⟨c :: code, .closes hquote hcode, List.forall_mem_cons.mpr ⟨?_, hplain⟩⟩
            rcases hquote with rfl | rfl <;> decide
          · rename_i hother
            exact ⟨code, .quoted ⟨hother, hplainChar⟩ hcode, hplain⟩

end Scrubbed

/-- A text that stands in front of a declaration without being seen there, and what is left
of it as code: the scrubbers keep it and read on in plain code, the reader of declarations
skips it, and its brackets and semicolons are no part of a declaration. -/
structure Fronts (text code : Text) : Prop where
  scan_eq : ∀ keep t, Scrubber.scan keep .code (text ++ t) =
    ((if keep then text else code) ++ (Scrubber.scan keep .code t).1,
      (Scrubber.scan keep .code t).2)
  strip_eq : ∀ t, stripAttributes (text ++ t) = stripAttributes t
  text_starts : text.head? = some '#'
  text_ends : text.getLast? = some ']'
  code_starts : code.head? = some '#'
  code_ends : code.getLast? = some ']'
  parens : code.count '(' = code.count ')'
  /-- A closing parenthesis stands at the end, in front of the bracket. -/
  signature : ∀ front back, code = front ++ ')' :: back → back = [']']
  plain : ∀ c ∈ ['\x7b', '\x7d', ';'], c ∉ code

namespace Attribute

variable {a : Attribute}

/-- What a name cannot have. -/
theorem not_mem_of_isNameChar {c : Char} (h : isNameChar c = true) :
    c ∉ ['/', '#', '<', '\'', '"', '`', '(', ')', '[', ']', '\x7b', '\x7d', ';'] :=
  Text.not_mem_of_class h (by decide)

theorem scan_listed {arguments : Option Text}
    (h : ∀ s ∈ arguments, isArgumentsFrom 0 .outside s = true) :
    ∃ codes : Option Text, (∀ code ∈ codes, ∀ c ∈ code, c ∉ foreign) ∧
      ∀ keep t, Scrubber.scan keep .code (listed arguments ++ t) =
        (listed (if keep then arguments else codes) ++ (Scrubber.scan keep .code t).1,
          (Scrubber.scan keep .code t).2) := by
  cases arguments with
  | none => exact ⟨none, by simp, fun keep t => by cases keep <;> rfl⟩
  | some s =>
    have houtside : QuoteState.outside.Marked := trivial
    obtain ⟨code, hcode, hplain⟩ := scrubsTo_arguments houtside (h s rfl)
    have huncommented : Scrubber.Uncommented .code s code := hcode
    refine ⟨some code, by simpa using hplain, fun keep t => ?_⟩
    have hs := huncommented.scan_append (e := ')') (by decide) keep t
    rw [Scrubber.scan_code_cons (by decide)] at hs
    rw [listed, List.cons_append, List.append_assoc, List.singleton_append,
      Scrubber.scan_code_cons (by decide), hs]
    cases keep <;> simp [listed]

theorem getLast?_text (a : Attribute) : a.text.getLast? = some ']' := by
  have hends : a.text = ('#' :: '[' :: (a.name ++ listed a.arguments)) ++ [']'] := by simp [text]
  rw [hends, List.getLast?_concat]

theorem stripAttributes_text (h : a.IsInline) (t : Text) :
    stripAttributes (a.text ++ t) = stripAttributes t := by
  have hlisted : behindBracket? 1 .outside (listed a.arguments ++ ']' :: t) = some t := by
    have hclose : behindBracket? 1 .outside (']' :: t) = some t := by
      simp [behindBracket?, closeFrom]
    cases harguments : a.arguments with
    | none => exact hclose
    | some s =>
      have hs := behindBracket?_arguments (h.arguments s harguments) (')' :: (']' :: t))
      rw [listed, List.cons_append, List.append_assoc, List.singleton_append]
      refine (behindBracket?_of_plain (s := ['(']) (by simp)).trans (hs.trans ?_)
      exact (behindBracket?_of_plain (s := [')']) (by simp)).trans hclose
  have hdrop : dropAttribute? (Text.trimStart (a.text ++ t)) = some t := by
    rw [Text.trimStart_eq_self (by simp [text, Text.isBlank])]
    have htext : a.text ++ t = '#' :: '[' :: (a.name ++ (listed a.arguments ++ ']' :: t)) := by
      simp [text]
    rw [htext]
    refine (behindBracket?_of_plain fun c hc hmem => ?_).trans hlisted
    exact not_mem_of_isNameChar (h.name c hc) (by simp at hmem ⊢; tauto)
  exact stripAttributes_of_dropAttribute?_some hdrop

/-- An attribute whose foreign characters are its own: those of its brackets and of the
parentheses around its arguments. -/
structure IsPlain (a : Attribute) : Prop where
  name : ∀ c ∈ a.name, c ∉ foreign
  arguments : ∀ s ∈ a.arguments, ∀ c ∈ s, c ∉ foreign

section Plain

variable {c : Char}

theorem IsPlain.not_mem_name (h : a.IsPlain) (hc : c ∈ foreign) : c ∉ a.name :=
  fun hmem => h.name c hmem hc

theorem IsPlain.not_mem_arguments (h : a.IsPlain) (hc : c ∈ foreign) {s : Text}
    (hs : a.arguments = some s) : c ∉ s :=
  fun hmem => h.arguments s hs c hmem hc

theorem IsPlain.count_text (h : a.IsPlain) (hc : c ∈ ['(', ')']) :
    a.text.count c = if a.arguments.isSome then 1 else 0 := by
  have hforeign : c ∈ foreign := by
    rcases List.mem_pair.mp hc with rfl | rfl <;> decide
  have hname := List.count_eq_zero_of_not_mem (h.not_mem_name hforeign)
  cases harguments : a.arguments with
  | none => rcases List.mem_pair.mp hc with rfl | rfl <;> simp [text, listed, harguments, hname]
  | some s =>
    have hs := List.count_eq_zero_of_not_mem (h.not_mem_arguments hforeign harguments)
    rcases List.mem_pair.mp hc with rfl | rfl <;> simp [text, listed, harguments, hname, hs]

theorem IsPlain.not_mem_text (h : a.IsPlain) (hc : c ∈ ['\x7b', '\x7d', ';']) : c ∉ a.text := by
  have hforeign : c ∈ foreign ∧ c ∉ ['#', '[', ']', '(', ')'] := by
    simp only [List.mem_cons, List.not_mem_nil, or_false] at hc
    rcases hc with rfl | rfl | rfl <;> decide
  obtain ⟨hforeign, hother⟩ := hforeign
  simp only [List.mem_cons, List.not_mem_nil, or_false, not_or] at hother
  have hname := h.not_mem_name hforeign
  cases harguments : a.arguments with
  | none => simp [text, listed, harguments, hname, hother]
  | some s =>
    simp [text, listed, harguments, hname, hother, h.not_mem_arguments hforeign harguments]

/-- Its one closing parenthesis stands in front of the closing bracket. -/
theorem IsPlain.eq_of_paren (h : a.IsPlain) {front back : Text}
    (hsplit : a.text = front ++ ')' :: back) : back = [']'] := by
  have hname : ')' ∉ a.name := h.not_mem_name (by decide)
  cases harguments : a.arguments with
  | none =>
    have hmem : ')' ∈ a.text := hsplit ▸ by simp
    simp [text, listed, harguments, hname] at hmem
  | some s =>
    have hs : ')' ∉ s := h.not_mem_arguments (by decide) harguments
    have hshape : a.text = ('#' :: '[' :: (a.name ++ '(' :: s)) ++ ')' :: [']'] := by
      simp [text, listed, harguments]
    rw [hshape, List.append_cons_inj_of_notMem (by simp [hname, hs]) (by decide)] at hsplit
    exact hsplit.2.2.symm

end Plain

/-- The text of an attribute and its code differ in the arguments only. -/
theorem exists_fronts (h : a.IsInline) : ∃ code, Fronts a.text code := by
  obtain ⟨codes, hcodes, hscan⟩ := scan_listed h.arguments
  have hname {c : Char} (hc : c ∈ a.name) := not_mem_of_isNameChar (h.name c hc)
  have hplain : IsPlain { a with arguments := codes } := by
    refine ⟨fun c hc hforeign => hname hc ?_, hcodes⟩
    simp only [foreign, List.mem_cons, List.not_mem_nil, or_false] at hforeign ⊢
    tauto
  refine ⟨text { a with arguments := codes },
    { scan_eq := fun keep t => ?_
      strip_eq := stripAttributes_text h
      text_starts := rfl
      text_ends := getLast?_text a
      code_starts := rfl
      code_ends := getLast?_text _
      parens := (hplain.count_text (by decide)).trans (hplain.count_text (by decide)).symm
      signature := fun front back => hplain.eq_of_paren
      plain := fun c => hplain.not_mem_text }⟩
  have hseen : ∀ c ∈ a.name, c ∉ ['/', '#', '<', '\'', '"', '`'] := fun c hc hmem =>
    hname hc (List.mem_append_left _ hmem)
  have htext : a.text ++ t = '#' :: '[' :: (a.name ++ (listed a.arguments ++ ']' :: t)) := by
    simp [text]
  rw [htext, Scrubber.scan, Scrubber.scan_append_plain hseen, hscan,
    Scrubber.scan_code_cons (by decide)]
  cases keep <;> simp [text]

end Attribute

end PhpLint.Code
