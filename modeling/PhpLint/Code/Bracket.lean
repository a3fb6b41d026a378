import PhpLint.Text.Basic

/-!
Counting, splitting and matching by brackets. A quoted stretch, in single or
double quotes with a backslash hiding the next character, never counts.
-/

namespace PhpLint

/-- Reading position with respect to quotes. -/
inductive QuoteState where
  | outside
  | inside (quote : Char)
  | escaped (quote : Char)
  deriving DecidableEq, Repr

/-- The state after a character that starts outside quotes or continues a quote. -/
def QuoteState.step : QuoteState → Char → QuoteState
  | .outside, c => if c = '\'' ∨ c = '"' then .inside c else .outside
  | .inside q, c => if c = '\\' then .escaped q else if c = q then .outside else .inside q
  | .escaped q, _ => .inside q

namespace Code

/-- Opening minus closing braces. -/
def braceDelta : Text → Int
  | [] => 0
  | c :: s => (if c = '{' then 1 else if c = '}' then -1 else 0) + braceDelta s

/-- The numbers of opening and of closing parentheses. -/
def parenCounts (s : Text) : Nat × Nat := (s.count '(', s.count ')')

/-- Where a top-level split stands: the depth of open brackets, the quotes, and
the character before. -/
structure Nesting where
  depth : Nat := 0
  quotes : QuoteState := .outside
  previous : Char := '\x00'
  deriving DecidableEq, Repr

def isOpening (c : Char) : Bool := c == '(' || c == '[' || c == '{' || c == '<'

def isClosing (c : Char) : Bool := c == ')' || c == ']' || c == '}' || c == '>'

/-- Whether a separator may be seen here. -/
def Nesting.atTop (n : Nesting) : Bool := n.depth == 0 && n.quotes == .outside

/-- Reads one character. The angle bracket of an arrow closes nothing, and a
closing bracket at depth zero changes nothing. -/
def Nesting.step (n : Nesting) (c : Char) : Nesting :=
  let arrow := c == '>' && (n.previous == '=' || n.previous == '-')
  { depth :=
      if n.quotes ≠ .outside then n.depth
      else if isOpening c then n.depth + 1
      else if isClosing c && !arrow then n.depth - 1
      else n.depth
    quotes := n.quotes.step c
    previous := c }

/-- Whether a character separates two parts here; brackets and quotes never do. -/
def Nesting.separates (n : Nesting) (sep c : Char) : Bool :=
  c == sep && n.atTop && !isOpening c && !isClosing c && !(c == '\'' || c == '"')

/-- The parts of a text, read from a given nesting. -/
def splitFrom (sep : Char) (n : Nesting) : Text → List Text
  | [] => [[]]
  | c :: s =>
    if n.separates sep c then [] :: splitFrom sep (n.step c) s
    else
      match splitFrom sep (n.step c) s with
      | [] => [[c]]
      | part :: parts => (c :: part) :: parts

/-- Splits a text at the separators that stand outside brackets and quotes. -/
def splitTopLevel (sep : Char) (s : Text) : List Text := splitFrom sep {} s

/-- Reads up to the bracket that closes the innermost of `depth` open ones and
returns the text before it and the text after it. -/
def closeFrom (opening closing : Char) :
    (depth : Nat) → QuoteState → Text → Option (Text × Text)
  | _, _, [] => none
  | depth, quotes, c :: s =>
    if quotes = .outside ∧ c = closing ∧ depth ≤ 1 then some ([], s)
    else
      let depth :=
        if quotes ≠ .outside then depth
        else if c = opening then depth + 1
        else if c = closing then depth - 1
        else depth
      (closeFrom opening closing depth (quotes.step c) s).map fun (inner, rest) =>
        (c :: inner, rest)

/-- For a text that starts with an opening parenthesis, what stands between it
and its partner, and what follows. -/
def closeParen? : Text → Option (Text × Text)
  | '(' :: s => closeFrom '(' ')' 1 .outside s
  | _ => none

/-- The text from a byte offset on, if a character starts there. -/
def dropBytes? : Nat → Text → Option Text
  | 0, s => some s
  | _ + 1, [] => none
  | n + 1, c :: s => if c.utf8Size ≤ n + 1 then dropBytes? (n + 1 - c.utf8Size) s else none

/-- The byte offset of the parenthesis that closes the one at a byte offset. -/
def matchingParen? (s : Text) (offset : Nat) : Option Nat := do
  let rest ← dropBytes? offset s
  let (inner, _) ← closeParen? rest
  return offset + 1 + Text.byteLength inner

/-- The text after one attribute group at its start, if the group is closed. -/
def dropAttribute? : Text → Option Text
  | '#' :: '[' :: s => (closeFrom '[' ']' 1 .outside s).map Prod.snd
  | _ => none

theorem closeFrom_eq_append {opening closing : Char} {depth : Nat} {quotes : QuoteState}
    {s inner rest : Text} (h : closeFrom opening closing depth quotes s = some (inner, rest)) :
    s = inner ++ closing :: rest := by
  induction s generalizing depth quotes inner with
  | nil => simp [closeFrom] at h
  | cons c s ih =>
    rw [closeFrom] at h
    split at h
    · rename_i hclose
      simp only [Option.some.injEq, Prod.mk.injEq] at h
      obtain ⟨rfl, rfl⟩ := h
      simp [hclose.2.1]
    · simp only [Option.map_eq_some_iff, Prod.mk.injEq, Prod.exists] at h
      obtain ⟨inner', rest', h', rfl, rfl⟩ := h
      rw [ih h', List.cons_append]

theorem eq_append_of_dropAttribute? {s rest : Text} (h : dropAttribute? s = some rest) :
    ∃ inner, s = '#' :: '[' :: (inner ++ ']' :: rest) := by
  unfold dropAttribute? at h
  split at h
  · obtain ⟨⟨inner, rest'⟩, hclose, rfl⟩ := Option.map_eq_some_iff.mp h
    exact ⟨inner, by rw [closeFrom_eq_append hclose]⟩
  · cases h

theorem dropAttribute?_length {s rest : Text} (h : dropAttribute? s = some rest) :
    rest.length < s.length := by
  obtain ⟨inner, rfl⟩ := eq_append_of_dropAttribute? h
  simp only [List.length_cons, List.length_append]
  omega

/-- Skips the attribute groups at the start of a text, and the blanks around
them. A group that is not closed stays. -/
def stripAttributes (s : Text) : Text :=
  match _h : dropAttribute? (Text.trimStart s) with
  | some rest => stripAttributes rest
  | none => Text.trimStart s
termination_by s.length
decreasing_by
  have hle : (Text.trimStart s).length ≤ s.length := (List.dropWhile_sublist _).length_le
  exact Nat.lt_of_lt_of_le (dropAttribute?_length _h) hle

theorem stripAttributes_of_dropAttribute? {s : Text}
    (h : dropAttribute? (Text.trimStart s) = none) : stripAttributes s = Text.trimStart s := by
  rw [stripAttributes]
  split
  · rename_i hsome
    rw [h] at hsome
    cases hsome
  · rfl

theorem stripAttributes_of_dropAttribute?_some {s rest : Text}
    (h : dropAttribute? (Text.trimStart s) = some rest) :
    stripAttributes s = stripAttributes rest := by
  rw [stripAttributes]
  split
  · rename_i hsome
    rw [Option.some.inj (h.symm.trans hsome)]
  · rename_i hnone
    rw [h] at hnone
    cases hnone

end Code

end PhpLint
