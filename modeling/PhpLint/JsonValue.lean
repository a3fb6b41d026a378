/-!
Values of the exchange format of reports, and their text on indented lines.
Numbers that are not whole are kept as they are written, since no report has any.
-/

namespace PhpLint

inductive JsonValue where
  | null
  | bool (b : Bool)
  | integer (n : Int)
  | fraction (text : String)
  | string (s : String)
  | array (items : List JsonValue)
  | object (fields : List (String × JsonValue))
  deriving Repr, Inhabited

namespace JsonValue

/-- The value of a field. -/
def field? (name : String) : JsonValue → Option JsonValue
  | .object fields => (fields.find? fun f => f.1 == name).map Prod.snd
  | _ => none

private def hexDigit (n : Nat) : Char := (Nat.toDigits 16 n).headD '0'

/-- The written form of a character inside quotes. -/
def escapeChar (c : Char) : List Char :=
  if c = '"' then ['\\', '"']
  else if c = '\\' then ['\\', '\\']
  else if c = '\n' then ['\\', 'n']
  else if c = '\r' then ['\\', 'r']
  else if c = '\t' then ['\\', 't']
  else if c = '\x08' then ['\\', 'b']
  else if c = '\x0c' then ['\\', 'f']
  else if c.toNat < 0x20 then
    ['\\', 'u', '0', '0', hexDigit (c.toNat / 16), hexDigit (c.toNat % 16)]
  else [c]

/-- A text in quotes. -/
def quote (s : String) : String :=
  String.ofList ('"' :: s.toList.flatMap escapeChar ++ ['"'])

private def indent (depth : Nat) : String := String.ofList (List.replicate (2 * depth) ' ')

/-- Writes entries on lines of their own between two brackets. -/
def block (opening closing : String) (depth : Nat) (entries : List String) : String :=
  if entries.isEmpty then opening ++ closing
  else
    opening ++ "\n" ++
      String.intercalate ",\n" (entries.map fun e => indent (depth + 1) ++ e) ++
      "\n" ++ indent depth ++ closing

mutual

/-- Writes a value, with two spaces for every level. -/
def pretty (depth : Nat) : JsonValue → String
  | .null => "null"
  | .bool b => if b then "true" else "false"
  | .integer n => toString n
  | .fraction text => text
  | .string s => quote s
  | .array items => block "[" "]" depth (prettyItems (depth + 1) items)
  | .object fields => block "\x7b" "\x7d" depth (prettyFields (depth + 1) fields)

def prettyItems (depth : Nat) : List JsonValue → List String
  | [] => []
  | item :: rest => pretty depth item :: prettyItems depth rest

def prettyFields (depth : Nat) : List (String × JsonValue) → List String
  | [] => []
  | (name, v) :: rest => (quote name ++ ": " ++ pretty depth v) :: prettyFields depth rest

end

end JsonValue

end PhpLint
