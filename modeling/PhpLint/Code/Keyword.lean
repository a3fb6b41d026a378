import PhpLint.Text.Word

/-!
Keywords and names at the start of a text. Keywords are read without regard to
case, where the long s and the Kelvin sign count as the letters they fold to;
where a name may follow such a keyword, both count as letters too.
-/

namespace PhpLint.Code

/-- Simple case folding onto the lower-case ASCII letters. -/
def foldLetter (c : Char) : Char :=
  if c = 'ſ' then 's' else if c = '\u212a' then 'k' else c.toLower

/-- Whether two texts are equal up to case folding of the first. -/
def foldsTo (s word : Text) : Bool := s.map foldLetter == word

/-- Reads a keyword, given in lower case, and returns it as written. -/
def keyword? : Text → Text → Option (Text × Text)
  | [], s => some ([], s)
  | _ :: _, [] => none
  | k :: word, c :: s =>
    if foldLetter c = k then (keyword? word s).map fun (w, rest) => (c :: w, rest) else none

/-- Reads the first of several keywords that fits. -/
def anyKeyword? (words : List Text) (s : Text) : Option (Text × Text) :=
  words.findSome? fun word => keyword? word s

/-- Skips one blank or more. -/
def blanks? : Text → Option Text
  | [] => none
  | c :: s => if Text.isBlank c then some (Text.trimStart s) else none

/-- Letters that may start a name after a keyword. -/
def isNameStart (c : Char) : Bool := Text.isIdentStart c || c == 'ſ' || c == '\u212a'

/-- Characters that may continue a name after a keyword. -/
def isNamePart (c : Char) : Bool := Text.isIdentPart c || c == 'ſ' || c == '\u212a'

/-- Reads a run of characters with one property after a first with another. -/
def readRun? (first part : Char → Bool) : Text → Option (Text × Text)
  | [] => none
  | c :: s => if first c then some (c :: s.takeWhile part, s.dropWhile part) else none

/-- Reads a name after a keyword. -/
def name? (s : Text) : Option (Text × Text) := readRun? isNameStart isNamePart s

/-- Reads an ASCII identifier. -/
def identifier? (s : Text) : Option (Text × Text) :=
  readRun? Text.isIdentStart Text.isIdentPart s

/-- Reads further segments of a qualified name, each after a backslash; at most
`fuel` of them. -/
def segments (first part : Char → Bool) : (fuel : Nat) → Text → Text × Text
  | 0, s => ([], s)
  | fuel + 1, s =>
    match s with
    | '\\' :: t =>
      match readRun? first part t with
      | some (segment, rest) =>
        let (more, rest) := segments first part fuel rest
        ('\\' :: segment ++ more, rest)
      | none => ([], s)
    | _ => ([], s)

/-- Reads a qualified name: segments between backslashes, with an optional
backslash in front. -/
def readQualified? (first part : Char → Bool) (s : Text) : Option (Text × Text) :=
  let (lead, s) := match s with
    | '\\' :: t => (['\\'], t)
    | _ => ([], s)
  match readRun? first part s with
  | some (segment, rest) =>
    let (more, rest) := segments first part rest.length rest
    some (lead ++ segment ++ more, rest)
  | none => none

/-- Whether a text is a qualified name of ASCII identifiers. -/
def isQualifiedName (s : Text) : Bool :=
  match readQualified? Text.isIdentStart Text.isIdentPart s with
  | some (_, rest) => rest.isEmpty
  | none => false

/-- The longest words of a text, read with the current word at hand, latest
character first. -/
def wordsFrom (current : Text) : Text → List Text
  | [] => if current.isEmpty then [] else [current.reverse]
  | c :: s =>
    if Text.isWord c then wordsFrom (c :: current) s
    else if current.isEmpty then wordsFrom [] s
    else current.reverse :: wordsFrom [] s

/-- The longest words of a text in order. -/
def words (s : Text) : List Text := wordsFrom [] s

/-- Whether the text goes on with something other than a word character. -/
def atWordEnd (s : Text) : Bool := !s.head?.any Text.isWord

/-- The text after the first place where a reader succeeds that starts at a word
boundary; the reader is given the text from there on. -/
def findAtWordStart {α : Type} (read : Text → Option α) (previous : Option Char) :
    Text → Option α
  | [] => none
  | c :: s =>
    match if previous.any Text.isWord then none else read (c :: s) with
    | some found => some found
    | none => findAtWordStart read (some c) s

/-- The places where a clause may start after a keyword: after all blanks, and
failing that after fewer of them, but always after one. -/
def clauseStarts (s : Text) : List Text :=
  let blanks := s.takeWhile Text.isBlank
  let rest := s.dropWhile Text.isBlank
  (List.range blanks.length).map fun kept => blanks.drop (blanks.length - kept) ++ rest

theorem keyword?_append (t rest : Text) :
    keyword? (t.map foldLetter) (t ++ rest) = some (t, rest) := by
  induction t with
  | nil => rfl
  | cons c t ih => rw [List.map_cons, List.cons_append, keyword?, if_pos rfl, ih, Option.map_some]

/-- A keyword is read where the text starts with it up to case. -/
theorem keyword?_eq_some_iff {word s w rest : Text} :
    keyword? word s = some (w, rest) ↔ s = w ++ rest ∧ w.map foldLetter = word := by
  constructor
  · intro h
    induction word generalizing s w with
    | nil =>
      obtain ⟨rfl, rfl⟩ := Prod.mk.inj (Option.some.inj h)
      exact ⟨rfl, rfl⟩
    | cons k word ih =>
      cases s with
      | nil => cases h
      | cons c s =>
        rw [keyword?] at h
        split at h
        · rename_i hk
          obtain ⟨⟨w', rest'⟩, hmore, heq⟩ := Option.map_eq_some_iff.mp h
          obtain ⟨rfl, rfl⟩ := Prod.mk.inj heq
          obtain ⟨rfl, rfl⟩ := ih hmore
          exact ⟨rfl, by rw [List.map_cons, hk]⟩
        · cases h
  · rintro ⟨rfl, rfl⟩
    exact keyword?_append w rest

theorem eq_append_of_anyKeyword? {words : List Text} {s w rest : Text}
    (h : anyKeyword? words s = some (w, rest)) : s = w ++ rest ∧ w.map foldLetter ∈ words := by
  obtain ⟨word, hmem, hword⟩ := List.exists_of_findSome?_eq_some h
  obtain ⟨happend, rfl⟩ := keyword?_eq_some_iff.mp hword
  exact ⟨happend, hmem⟩

theorem keyword?_length {word s w rest : Text} (h : keyword? word s = some (w, rest)) :
    rest.length ≤ s.length := by
  rw [(keyword?_eq_some_iff.mp h).1, List.length_append]
  exact Nat.le_add_left ..

theorem anyKeyword?_length {words : List Text} {s w rest : Text}
    (h : anyKeyword? words s = some (w, rest)) : rest.length ≤ s.length := by
  rw [(eq_append_of_anyKeyword? h).1, List.length_append]
  exact Nat.le_add_left ..

theorem blanks?_length {s rest : Text} (h : blanks? s = some rest) :
    rest.length < s.length := by
  cases s with
  | nil => simp [blanks?] at h
  | cons c s =>
    rw [blanks?] at h
    split at h
    · obtain rfl := Option.some.inj h
      exact Nat.lt_succ_of_le (List.dropWhile_sublist _).length_le
    · simp at h

end PhpLint.Code
