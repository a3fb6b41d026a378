import PhpLint.TypeExpr.Basic

/-!
When a documented type contradicts a declared one. Types are compared member by
member, and the comparison is generous: it finds a contradiction only if no
member of one type fits any member of the other.
-/

namespace PhpLint.TypeExpr

/-- A member of a union, reduced to what is compared. -/
structure Shape where
  base : Text
  arrayLike : Bool
  deriving DecidableEq, Repr

namespace Shape

/-- Names that never denote a class. -/
def scalarNames : List Text :=
  ["bool", "int", "float", "string", "array", "callable", "iterable", "void", "mixed", "never",
    "null", "object", "true", "false", "resource", "list"].map String.toList

/-- Names that refer to the class around the declaration. -/
def selfNames : List Text := ["self", "static", "$this"].map String.toList

/-- Drops all array brackets from a reversed member. -/
def dropBracketsReversed : Text → Text
  | ']' :: '[' :: s => dropBracketsReversed s
  | s => s

/-- Drops all variadic dots from a reversed member. -/
def dropDotsReversed : Text → Text
  | '.' :: '.' :: '.' :: s => dropDotsReversed s
  | s => s

def isListName (base : Text) : Bool :=
  base == "array".toList || base == "iterable".toList || base == "list".toList

/-- The shape of one part of a union; blank parts and `null` have none. -/
def ofPart? (part : Text) : Option Shape :=
  let part := Text.trim ((Text.trim part).dropWhile (· == '?'))
  let bare := (dropDotsReversed (dropBracketsReversed part.reverse)).reverse
  let base := Text.trim (TypeExpr.base (normalizeMember bare))
  if base.isEmpty || base == "null".toList then none
  else some { base, arrayLike := (Text.stripEnd? ['[', ']'] part).isSome || isListName base }

def isClassLike (s : Shape) : Bool := !scalarNames.contains (Text.asciiLower s.base)

def isSelfLike (s : Shape) : Bool := selfNames.contains (Text.asciiLower s.base)

def isTruthName (base : Text) : Bool := base == "true".toList || base == "false".toList

/-- Whether two members may describe the same value. Class names are compared by
their short names without regard to case. -/
def compatible (s t : Shape) : Bool :=
  if s.base == "mixed".toList || t.base == "mixed".toList then true
  else if s.arrayLike && t.arrayLike then true
  else if s.arrayLike != t.arrayLike then false
  else if s.base == "bool".toList && isTruthName t.base
      || t.base == "bool".toList && isTruthName s.base then true
  else if s.isClassLike && t.isClassLike then
    s.isSelfLike || t.isSelfLike || Text.eqAsciiCase (shortName s.base) (shortName t.base)
  else s.base == t.base

end Shape

/-- The shapes of the members of a union. -/
def shapes (raw : Text) : List Shape := (Code.splitTopLevel '|' raw).filterMap Shape.ofPart?

/-- Whether two types contradict each other: both have members, and none of one
fits any of the other. -/
def contradicts (documented declared : Text) : Bool :=
  let ds := shapes documented
  let cs := shapes declared
  !ds.isEmpty && !cs.isEmpty && !ds.any fun d => cs.any d.compatible

end PhpLint.TypeExpr
