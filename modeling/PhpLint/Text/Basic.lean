/-!
Source text is a list of characters throughout the library, so that every scan
is a recursion on the text itself. This module has the blank class, trimming,
cutting a text at its ends, and the ASCII identifier characters.
-/

namespace PhpLint

/-- Source text as the list of its characters. -/
abbrev Text := List Char

namespace Text

/-- Whether a code point belongs to the class whose membership changes at the
points of an ascending list: it does if an odd number of them is at or below it. -/
def flips (bounds : List Nat) (n : Nat) : Bool :=
  (bounds.takeWhile (· ≤ n)).length % 2 == 1

/-- White space: the ASCII controls from tab to carriage return, the space, and
the separators of the other blocks. -/
def isBlank (c : Char) : Bool :=
  let n := c.toNat
  (0x9 ≤ n && n ≤ 0xd) || n == 0x20 || n == 0x85 || n == 0xa0 || n == 0x1680 ||
    (0x2000 ≤ n && n ≤ 0x200a) || n == 0x2028 || n == 0x2029 || n == 0x202f || n == 0x205f ||
    n == 0x3000

/-- Drops white space at the start. -/
def trimStart (s : Text) : Text := s.dropWhile isBlank

/-- Drops the longest end that consists of characters with the property. -/
def dropEndWhile (p : Char → Bool) (s : Text) : Text := (s.reverse.dropWhile p).reverse

/-- Drops white space at the end. -/
def trimEnd (s : Text) : Text := dropEndWhile isBlank s

/-- Drops white space at both ends. -/
def trim (s : Text) : Text := trimEnd (trimStart s)

/-- The text after a given start, if it starts so. -/
def strip? : Text → Text → Option Text
  | [], s => some s
  | _ :: _, [] => none
  | p :: ps, c :: s => if p = c then strip? ps s else none

/-- The text before a given end, if it ends so. -/
def stripEnd? (tail s : Text) : Option Text :=
  (strip? tail.reverse s.reverse).map List.reverse

/-- Cuts a text at the first character with the property; that character starts
the second part. -/
def cut (p : Char → Bool) (s : Text) : Text × Text := s.span (fun c => !p c)

/-- Splits a text at every occurrence of a character. -/
def splitAtChar (sep : Char) : Text → List Text
  | [] => [[]]
  | c :: s =>
    if c = sep then [] :: splitAtChar sep s
    else
      match splitAtChar sep s with
      | [] => [[c]]
      | part :: parts => (c :: part) :: parts

/-- Whether a text occurs in another. -/
def occursIn (needle : Text) : Text → Bool
  | [] => needle.isEmpty
  | c :: s => needle.isPrefixOf (c :: s) || occursIn needle s

/-- Joins texts with a separator between neighbours. -/
def join (sep : Text) : List Text → Text
  | [] => []
  | [s] => s
  | s :: t :: rest => s ++ sep ++ join sep (t :: rest)

/-- The number of bytes of the UTF-8 form. -/
def byteLength : Text → Nat
  | [] => 0
  | c :: s => c.utf8Size + byteLength s

/-- ASCII letters and the underscore. -/
def isIdentStart (c : Char) : Bool := c.isAlpha || c == '_'

/-- ASCII letters, digits and the underscore. -/
def isIdentPart (c : Char) : Bool := c.isAlphanum || c == '_'

end Text

end PhpLint
