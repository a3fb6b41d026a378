import PhpLint.Check.Context

/-!
The rule on file layout: opening tag, place of the strict types declaration,
indentation and line length.
-/

namespace PhpLint.Check

/-- How many lines are searched for the strict types declaration. -/
def declareSearchLines : Nat := 5

/-- The last line on which the strict types declaration may stand. -/
def declareLastLine : Nat := 3

/-- The file starts with the opening tag. -/
def openingTagIssues (ctx : FileContext) : List Issue :=
  match ctx.lines with
  | [] => []
  | first :: _ =>
    if "<?php".toList.isPrefixOf (Text.trim first) then []
    else [ctx.issue 1 "File must start with <?php tag."]

/-- The strict types declaration, in its plain spelling, stands early. -/
def declarePlaceIssues (ctx : FileContext) (m : SourceModel) : List Issue :=
  if !m.strictTypes then []
  else
    match (ctx.lines.take declareSearchLines).findIdx?
        (Text.occursIn "declare(strict_types=1)".toList) with
    | some index =>
      if declareLastLine ≤ index then
        [ctx.issue (index + 1) "declare(strict_types=1) must be on line 2 or 3."]
      else []
    | none => []

/-- The blanks at the start of a line. -/
def indentation (line : Text) : Text := line.takeWhile Text.isBlank

/-- The issues of one line; blank lines have none. -/
def lineLayoutIssues (maxLineLength : Nat) (ctx : FileContext) (number : Nat) (line : Text) :
    List Issue :=
  if (Text.trim line).isEmpty then []
  else
    let indent := indentation line
    let length := (Text.trimEnd line).length
    (if indent.contains '\t' then [ctx.issue number "Indentation must use spaces, not tabs."]
      else []) ++
    (if indent.length % 4 ≠ 0 then
      [ctx.issue number "Indentation must be in multiples of 4 spaces."] else []) ++
    (if maxLineLength < length then
      [ctx.issue number ("Line exceeds " ++ toString maxLineLength ++ " characters. (" ++
        toString length ++ " characters)")] else [])

/-- Files follow the layout standard. -/
def layoutCompliance (maxLineLength : Nat) (ctx : FileContext) (m : SourceModel) : List Issue :=
  openingTagIssues ctx ++ declarePlaceIssues ctx m ++
    ctx.numbered.flatMap fun (number, line) => lineLayoutIssues maxLineLength ctx number line

end PhpLint.Check
