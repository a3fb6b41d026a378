import PhpLint.DocBlock.Parser

/-!
Finding the doc comment of a declaration: it ends on the nearest line above that
is neither blank nor an attribute.
-/

namespace PhpLint.DocBlock

/-- Lines between a doc comment and its declaration. -/
def isSkipped (line : Text) : Bool :=
  let line := Text.trim line
  line.isEmpty || ['#', '['].isPrefixOf line

def startsBlock (line : Text) : Bool := ['/', '*', '*'].isPrefixOf (Text.trim line)

def endsBlock (line : Text) : Bool := (Text.stripEnd? ['*', '/'] (Text.trim line)).isSome

/-- Lines between the first and the last of a block. -/
def isInner (line : Text) : Bool :=
  let line := Text.trim line
  line.isEmpty || line.head? == some '*'

/-- The lines of a block up to its first one, nearest first, if the lines above
its last one make up a block. -/
def linesUpTo : List Text → Option (List Text)
  | [] => none
  | line :: above =>
    if startsBlock line then some [line]
    else if isInner line then (linesUpTo above).map (line :: ·)
    else none

/-- The lines of the block that ends on the first of some lines, nearest first. -/
def blockLines? : List Text → Option (List Text)
  | [] => none
  | last :: above =>
    if !endsBlock last then none
    else if startsBlock last then
      if Text.trim last = "/**/".toList then none else some [last]
    else (linesUpTo above).map (last :: ·)

/-- The doc comment above a line, counted from one. -/
def above? (lines : List Text) (line : Nat) : Option DocBlock :=
  let above := (lines.take (line - 1)).reverse.dropWhile isSkipped
  (blockLines? above).map fun block =>
    parse (Text.join ['\n'] block.reverse) (above.length - block.length + 1) above.length

end PhpLint.DocBlock
