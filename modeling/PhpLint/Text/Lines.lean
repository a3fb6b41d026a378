import PhpLint.Text.Basic

/-!
Two ways to cut a text into lines. Source files end their lines with a carriage
return, a line feed or the pair of them; the inner lines of a doc comment and of
an ignore file end with a line feed, and one carriage return before it is dropped.
-/

namespace PhpLint.Text

/-- Reads a source text with the characters of the current line at hand, latest
first. A line end at the very end starts no further line. -/
def splitLinesFrom (current : Text) : Text → List Text
  | [] => if current.isEmpty then [] else [current.reverse]
  | '\r' :: '\n' :: rest => current.reverse :: splitLinesFrom [] rest
  | c :: rest =>
    if c = '\r' ∨ c = '\n' then current.reverse :: splitLinesFrom [] rest
    else splitLinesFrom (c :: current) rest

/-- The lines of a source file. -/
def splitLines (s : Text) : List Text := splitLinesFrom [] s

/-- Drops a carriage return at the end. -/
def dropReturn (s : Text) : Text := (stripEnd? ['\r'] s).getD s

/-- The lines of a text that ends its lines with line feeds. A last line without
a line feed keeps a carriage return. -/
def feedLines (s : Text) : List Text :=
  let parts := splitAtChar '\n' s
  let last := parts.getLast?.getD []
  parts.dropLast.map dropReturn ++ if last.isEmpty then [] else [last]

end PhpLint.Text
