import PhpLint.Text.Case

/-!
Naming conventions of identifiers: four predicates, which admit ASCII names
only, and four conversions through the words of a name.
-/

namespace PhpLint.Naming

/-- The first character has one property and every other character another. -/
def shaped (first rest : Char → Bool) : Text → Bool
  | [] => false
  | c :: s => first c && s.all rest

/-- Names such as `fooBar`. -/
def isCamelCase (name : Text) : Bool := shaped Char.isLower Char.isAlphanum name

/-- Names such as `FooBar`. -/
def isPascalCase (name : Text) : Bool := shaped Char.isUpper Char.isAlphanum name

/-- Names such as `foo_bar`. -/
def isSnakeCase (name : Text) : Bool :=
  shaped Char.isLower (fun c => c.isLower || c.isDigit || c == '_') name

/-- Names such as `FOO_BAR`. -/
def isConstantCase (name : Text) : Bool :=
  shaped Char.isUpper (fun c => c.isUpper || c.isDigit || c == '_') name

/-- Characters between words. -/
def isSeparator (c : Char) : Bool := c == '_' || c == '-' || Text.isBlank c

/-- Whether an upper-case character starts a new word after a given neighbour: it
does after a lower-case letter or a digit, and as the last capital of a run before
a lower-case letter. -/
def startsWord (previous : Char) (c : Char) (rest : Text) : Bool :=
  Text.isUpper c &&
    (Text.isLower previous || previous.isDigit ||
      (Text.isUpper previous && rest.head?.any Text.isLower))

private def emit (current : Text) (words : List Text) : List Text :=
  if current.isEmpty then words else current :: words

/-- Reads words with the character before and the lower-cased start of the
current word at hand. -/
def wordsFrom (previous : Option Char) (current : Text) : Text → List Text
  | [] => emit current []
  | c :: rest =>
    if isSeparator c then emit current (wordsFrom (some c) [] rest)
    else if previous.any fun p => startsWord p c rest then
      emit current (wordsFrom (some c) (Text.lowerChar c) rest)
    else wordsFrom (some c) (current ++ Text.lowerChar c) rest

/-- The lower-cased words of a name, split at separators and case changes. -/
def words (name : Text) : List Text := wordsFrom none [] name

/-- A word with its first character in upper case. -/
def capitalize : Text → Text
  | [] => []
  | c :: s => Text.upperChar c ++ s

def toPascalCase (name : Text) : Text := (words name).flatMap capitalize

def toCamelCase (name : Text) : Text :=
  match toPascalCase name with
  | [] => []
  | c :: s => Text.lowerChar c ++ s

def toSnakeCase (name : Text) : Text := Text.join ['_'] (words name)

def toConstantCase (name : Text) : Text := Text.toUpper (toSnakeCase name)

end PhpLint.Naming
