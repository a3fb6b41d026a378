import Mathlib.Data.List.Basic
import PhpLint.Code.Bracket

/-!
Texts that keep to themselves. A text whose parentheses are matched by one another is
passed over in the search for a closing parenthesis, and a text in which every bracket
and quote is closed and no separator stands at the top is one part of whatever is put
together from it with separators.
-/

namespace PhpLint.Code

section Parentheses

/-- The number of open parentheses after a character. -/
def openParens (depth : Nat) (quotes : QuoteState) (c : Char) : Nat :=
  if quotes ≠ .outside then depth
  else if c = '(' then depth + 1
  else if c = ')' then depth - 1
  else depth

/-- The parenthesis that closes the last open one stands right behind the text. -/
def ClosesBehind (depth : Nat) (quotes : QuoteState) (s : Text) : Prop :=
  closeFrom '(' ')' depth quotes (s ++ [')']) = some (s, [])

variable {depth : Nat} {quotes : QuoteState} {s t : Text} {c : Char}

theorem closeFrom_cons (h : ¬ (quotes = .outside ∧ c = ')' ∧ depth ≤ 1)) (s : Text) :
    closeFrom '(' ')' depth quotes (c :: s) =
      (closeFrom '(' ')' (openParens depth quotes c) (quotes.step c) s).map fun (inner, rest) =>
        (c :: inner, rest) := by
  rw [closeFrom, if_neg h]
  rfl

theorem closesBehind_nil_iff : ClosesBehind depth quotes [] ↔ quotes = .outside ∧ depth ≤ 1 := by
  rw [ClosesBehind, List.nil_append, closeFrom]
  split
  · rename_i hclose
    simp [hclose]
  · rename_i hopen
    simpa [closeFrom] using hopen

theorem closesBehind_cons_iff :
    ClosesBehind depth quotes (c :: s) ↔
      ¬ (quotes = .outside ∧ c = ')' ∧ depth ≤ 1) ∧
        ClosesBehind (openParens depth quotes c) (quotes.step c) s := by
  by_cases hclose : quotes = .outside ∧ c = ')' ∧ depth ≤ 1
  · simp [ClosesBehind, closeFrom, hclose]
  · simp [ClosesBehind, closeFrom_cons hclose, hclose]

theorem one_le_openParens (hdepth : 1 ≤ depth)
    (hopen : ¬ (quotes = .outside ∧ c = ')' ∧ depth ≤ 1)) : 1 ≤ openParens depth quotes c := by
  unfold openParens
  split
  · exact hdepth
  · rename_i hquotes
    split
    · omega
    · split
      · rename_i hclose
        have hmore : ¬ depth ≤ 1 := fun hle => hopen ⟨by simpa using hquotes, hclose, hle⟩
        omega
      · exact hdepth

/-- The search for the parenthesis that closes one in front of the text passes it over. -/
def Enclosed (s : Text) : Prop :=
  ∀ t, closeFrom '(' ')' 1 .outside (s ++ t) =
    (closeFrom '(' ')' 1 .outside t).map fun (inner, rest) => (s ++ inner, rest)

theorem ClosesBehind.append (hdepth : 1 ≤ depth) (h : ClosesBehind depth quotes s) (t : Text) :
    closeFrom '(' ')' depth quotes (s ++ t) =
      (closeFrom '(' ')' 1 .outside t).map fun (inner, rest) => (s ++ inner, rest) := by
  induction s generalizing depth quotes with
  | nil =>
    obtain ⟨rfl, hle⟩ := closesBehind_nil_iff.mp h
    obtain rfl : depth = 1 := by omega
    simp
  | cons c s ih =>
    obtain ⟨hopen, hmore⟩ := closesBehind_cons_iff.mp h
    rw [List.cons_append, closeFrom_cons hopen, ih (one_le_openParens hdepth hopen) hmore,
      Option.map_map]
    rfl

theorem Enclosed.of_closeParen? (h : closeParen? ('(' :: s ++ [')']) = some (s, [])) : Enclosed s :=
  ClosesBehind.append (Nat.le_refl 1) h

theorem Enclosed.close (h : Enclosed s) (t : Text) :
    closeFrom '(' ')' 1 .outside (s ++ ')' :: t) = some (s, t) := by
  rw [h]
  simp [closeFrom]

theorem Enclosed.closesBehind (h : Enclosed s) : ClosesBehind 1 .outside s := h.close []

theorem Enclosed.nil : Enclosed [] := by
  intro t
  simp

theorem Enclosed.append (hs : Enclosed s) (ht : Enclosed t) : Enclosed (s ++ t) := by
  intro u
  rw [List.append_assoc, hs, ht, Option.map_map]
  congr 1
  funext x
  simp

theorem Enclosed.of_plain (h : ∀ c ∈ s, c ∉ ['(', ')', '\'', '"']) : Enclosed s := by
  induction s with
  | nil => exact .nil
  | cons c s ih =>
    rw [List.forall_mem_cons] at h
    refine Enclosed.append (s := [c]) ?_ (ih h.2)
    intro t
    have hc := h.1
    simp only [List.mem_cons, List.not_mem_nil, or_false, not_or] at hc
    simp [closeFrom, QuoteState.step, hc]

theorem Enclosed.join {sep : Text} (hsep : Enclosed sep) {parts : List Text}
    (h : ∀ p ∈ parts, Enclosed p) : Enclosed (Text.join sep parts) := by
  match parts with
  | [] => exact .nil
  | [p] => exact h p List.mem_cons_self
  | p :: q :: parts =>
    rw [List.forall_mem_cons] at h
    exact (h.1.append hsep).append (Enclosed.join hsep h.2)

end Parentheses

section Parts

variable {sep c : Char} {n : Nesting} {s : Text}

/-- Read from a nesting on, the text is one part, and at its end nothing is open. -/
structure IsPart (sep : Char) (n : Nesting) (s : Text) : Prop where
  split_eq : splitFrom sep n s = [s]
  closed : (s.foldl Nesting.step n).atTop = true

theorem splitFrom_ne_nil (sep : Char) (n : Nesting) (s : Text) : splitFrom sep n s ≠ [] := by
  cases s with
  | nil => simp [splitFrom]
  | cons c s =>
    rw [splitFrom]
    split
    · simp
    · split <;> simp

/-- Read from a nesting on, the text has no separator at which it is split. -/
def Unbroken (sep : Char) (n : Nesting) (s : Text) : Prop := splitFrom sep n s = [s]

theorem unbroken_cons_iff :
    Unbroken sep n (c :: s) ↔ n.separates sep c = false ∧ Unbroken sep (n.step c) s := by
  unfold Unbroken
  rw [splitFrom]
  split
  · rename_i hsep
    simp [hsep]
  · rename_i hsep
    obtain ⟨part, parts, hparts⟩ := List.exists_cons_of_ne_nil (splitFrom_ne_nil sep (n.step c) s)
    simp [hsep, hparts]

theorem unbroken_append_iff {t : Text} :
    Unbroken sep n (s ++ t) ↔ Unbroken sep n s ∧ Unbroken sep (s.foldl Nesting.step n) t := by
  induction s generalizing n with
  | nil => exact ⟨fun h => ⟨rfl, h⟩, fun h => h.2⟩
  | cons c s ih =>
    rw [List.cons_append, unbroken_cons_iff, unbroken_cons_iff, ih, List.foldl_cons, and_assoc]

theorem isPart_nil_iff : IsPart sep n [] ↔ n.atTop = true :=
  ⟨fun h => h.closed, fun h => ⟨rfl, h⟩⟩

theorem isPart_cons_iff :
    IsPart sep n (c :: s) ↔ n.separates sep c = false ∧ IsPart sep (n.step c) s := by
  constructor
  · rintro ⟨hsplit, hclosed⟩
    obtain ⟨hc, hmore⟩ := unbroken_cons_iff.mp hsplit
    exact ⟨hc, hmore, hclosed⟩
  · rintro ⟨hc, hsplit, hclosed⟩
    exact ⟨unbroken_cons_iff.mpr ⟨hc, hsplit⟩, hclosed⟩

/-- The brackets and the quotes. -/
def nestingChars : List Char := ['(', '[', '\x7b', '<', ')', ']', '\x7d', '>', '\'', '"']

/-- At the top, the character before has no influence: with nothing open, the bracket of an
arrow closes as little as any other. -/
theorem Nesting.step_top (htop : n.atTop = true) (c : Char) : n.step c = Nesting.step {} c := by
  obtain ⟨depth, quotes, previous⟩ := n
  simp only [Nesting.atTop, Bool.and_eq_true, beq_iff_eq] at htop
  obtain ⟨rfl, rfl⟩ := htop
  simp [Nesting.step]

theorem Nesting.separates_iff :
    n.separates sep c = true ↔ c = sep ∧ n.atTop = true ∧ sep ∉ nestingChars := by
  simp only [Nesting.separates, isOpening, isClosing, nestingChars, Bool.and_eq_true, beq_iff_eq,
    Bool.not_eq_true', Bool.or_eq_false_iff, beq_eq_false_iff_ne, List.mem_cons,
    List.not_mem_nil, or_false, not_or]
  constructor
  · rintro ⟨⟨⟨⟨rfl, htop⟩, hopening⟩, hclosing⟩, hquote⟩
    simp_all
  · rintro ⟨rfl, htop, hplain⟩
    simp_all

theorem Nesting.separates_top (htop : n.atTop = true) (c : Char) :
    n.separates sep c = Nesting.separates {} sep c := by
  have hfresh : ({} : Nesting).atTop = true := rfl
  exact Bool.eq_iff_iff.mpr (by simp [Nesting.separates_iff, htop, hfresh])

theorem splitFrom_top (htop : n.atTop = true) (s : Text) :
    splitFrom sep n s = splitTopLevel sep s := by
  cases s with
  | nil => rfl
  | cons c s =>
    rw [splitTopLevel, splitFrom, splitFrom, Nesting.separates_top htop, Nesting.step_top htop]

/-- What stands in front of a part has no influence on it. -/
theorem isPart_top_iff (htop : n.atTop = true) : IsPart sep n s ↔ IsPart sep {} s := by
  cases s with
  | nil => exact ⟨fun _ => isPart_nil_iff.mpr rfl, fun _ => isPart_nil_iff.mpr htop⟩
  | cons c s =>
    rw [isPart_cons_iff, isPart_cons_iff, Nesting.separates_top htop, Nesting.step_top htop]

/-- At the top, a character that is neither a bracket nor a quote is all that is
remembered of a text. -/
theorem Nesting.step_plain (htop : n.atTop = true) (hc : c ∉ nestingChars) :
    n.step c = { previous := c } := by
  simp only [nestingChars, List.mem_cons, List.not_mem_nil, or_false, not_or] at hc
  simp only [Nesting.atTop, Bool.and_eq_true, beq_iff_eq] at htop
  obtain ⟨depth, quotes, previous⟩ := n
  obtain ⟨rfl, rfl⟩ := htop
  simp [Nesting.step, QuoteState.step, isOpening, isClosing, hc]

theorem Nesting.atTop_foldl_plain (htop : n.atTop = true) (hs : ∀ c ∈ s, c ∉ nestingChars) :
    (s.foldl Nesting.step n).atTop = true := by
  induction s generalizing n with
  | nil => exact htop
  | cons c s ih =>
    rw [List.forall_mem_cons] at hs
    rw [List.foldl_cons, Nesting.step_plain htop hs.1]
    exact ih rfl hs.2

/-- A text goes on as one part behind anything without a separator. -/
theorem IsPart.append {front : Text} (hfront : sep ∉ front)
    (h : IsPart sep (front.foldl Nesting.step n) s) : IsPart sep n (front ++ s) := by
  induction front generalizing n with
  | nil => exact h
  | cons c front ih =>
    rw [List.mem_cons, not_or] at hfront
    refine isPart_cons_iff.mpr ⟨?_, ih hfront.2 h⟩
    simp [Nesting.separates, Ne.symm hfront.1]

theorem IsPart.of_plain (htop : n.atTop = true) (hs : ∀ c ∈ s, c ∉ nestingChars ∧ c ≠ sep) :
    IsPart sep n s := by
  have hsep : sep ∉ s := fun hmem => (hs sep hmem).2 rfl
  have hnil : IsPart sep (s.foldl Nesting.step n) [] :=
    isPart_nil_iff.mpr (Nesting.atTop_foldl_plain htop fun c hc => (hs c hc).1)
  simpa using IsPart.append hsep hnil

theorem splitFrom_append (h : IsPart sep n s) (hsep : sep ∉ nestingChars) (t : Text) :
    splitFrom sep n (s ++ sep :: t) = s :: splitFrom sep { previous := sep } t := by
  induction s generalizing n with
  | nil =>
    have htop := isPart_nil_iff.mp h
    have hseparates := Nesting.separates_iff.mpr ⟨rfl, htop, hsep⟩
    rw [List.nil_append, splitFrom, if_pos hseparates, Nesting.step_plain htop hsep]
  | cons c s ih =>
    obtain ⟨hc, hmore⟩ := isPart_cons_iff.mp h
    rw [List.cons_append, splitFrom, if_neg (by simp [hc]), ih hmore]

theorem splitFrom_join (hsep : sep ∉ nestingChars) {parts : List Text} (hne : parts ≠ [])
    (h : ∀ p ∈ parts, ∀ n : Nesting, n.atTop = true → IsPart sep n p) (htop : n.atTop = true) :
    splitFrom sep n (Text.join [sep] parts) = parts := by
  induction parts generalizing n with
  | nil => exact absurd rfl hne
  | cons p parts ih =>
    rw [List.forall_mem_cons] at h
    cases parts with
    | nil => exact (h.1 n htop).split_eq
    | cons q parts =>
      rw [Text.join, List.append_assoc, List.singleton_append, splitFrom_append (h.1 n htop) hsep,
        ih (by simp) h.2 rfl]

/-- Texts that are one part each are put together with separators and split again. -/
theorem splitTopLevel_join (hsep : sep ∉ nestingChars) {parts : List Text} (hne : parts ≠ [])
    (h : ∀ p ∈ parts, ∀ n : Nesting, n.atTop = true → IsPart sep n p) :
    splitTopLevel sep (Text.join [sep] parts) = parts :=
  splitFrom_join hsep hne h rfl

end Parts

end PhpLint.Code
