import PhpLint.Code.Keyword

/-!
All matches of a reader in a text, from left to right. A match ends the search
inside it: the next one starts after what the reader consumed.
-/

namespace PhpLint.Code

/-- Searches with the character before, skipping a number of characters first.
Where `word` is set, a match starts at the start of a word only. -/
def findAllFrom {α : Type} (word : Bool) (read : Text → Option (α × Text)) (previous : Option Char)
    (skip : Nat) : Text → List α
  | [] => []
  | c :: s =>
    match skip with
    | skip + 1 => findAllFrom word read (some c) skip s
    | 0 =>
      match if word && previous.any Text.isWord then none else read (c :: s) with
      | some (found, rest) => found :: findAllFrom word read (some c) (s.length - rest.length) s
      | none => findAllFrom word read (some c) 0 s

/-- All matches at any place. -/
def findAll {α : Type} (read : Text → Option (α × Text)) (s : Text) : List α :=
  findAllFrom false read none 0 s

/-- All matches that start a word. -/
def findAllWords {α : Type} (read : Text → Option (α × Text)) (s : Text) : List α :=
  findAllFrom true read none 0 s

end PhpLint.Code
