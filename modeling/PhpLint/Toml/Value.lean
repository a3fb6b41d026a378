import PhpLint.Keyed
import PhpLint.Toml.DateTime

/-!
Values of a configuration document, and the tables they are collected in while
the document is read. No setting is a float, so that of those only the kind is
kept.
-/

namespace PhpLint.Toml

inductive Value where
  | integer (n : Int)
  | string (s : Text)
  | boolean (b : Bool)
  | float
  | datetime (d : DateTime)
  | array (items : List Value)
  | table (entries : List (Text × Value))
  deriving Repr, Inhabited

/-- What stands under a key while the document is read. -/
inductive Node where
  | value (v : Value)
  /-- A table; it is `implied` if no header has named it, and `dotted` if a key
  with dots has made it. -/
  | table (implied dotted : Bool) (entries : List (Text × Node))
  /-- A list of tables, each with a header of its own. -/
  | tables (elements : List (List (Text × Node)))

abbrev Entries := Keyed Text Node

mutual

/-- The value that a node stands for. -/
def Node.freeze : Node → Value
  | .value v => v
  | .table _ _ entries => .table (freezeEntries entries)
  | .tables elements => .array (freezeElements elements)

def freezeEntries : List (Text × Node) → List (Text × Value)
  | [] => []
  | (key, node) :: rest => (key, node.freeze) :: freezeEntries rest

def freezeElements : List (List (Text × Node)) → List Value
  | [] => []
  | entries :: rest => .table (freezeEntries entries) :: freezeElements rest

end

namespace Entries

/-- Changes the table at the end of a path. Missing tables are made on the way;
the last of a list of tables is entered; a key with dots does not enter a table
that a header has named. `dotted` tells whether the path comes from such a key,
and the change is told whether one has made its table. -/
def descend (dotted : Bool) (change : Bool → Entries → Option Entries) :
    List Text → Bool → Entries → Option Entries
  | [], isDotted, entries => change isDotted entries
  | key :: path, _, entries =>
    match entries.get? key with
    | none =>
      (descend dotted change path dotted []).map fun inner =>
        entries.insert key (.table true dotted inner)
    | some (.value _) => none
    | some (.tables elements) =>
      match elements.getLast? with
      | none => none
      | some last =>
        (descend dotted change path false last).map fun inner =>
          entries.insert key (.tables (elements.dropLast ++ [inner]))
    | some (.table implied isDotted inner) =>
      if dotted && !implied then none
      else
        (descend dotted change path isDotted inner).map fun inner =>
          entries.insert key (.table implied isDotted inner)

/-- Writes a value under a key with dots, given as a path and a last key. Every
key is written once, and tables of a header and of dotted keys do not mix. -/
def write (path : List Text) (key : Text) (v : Value) (entries : Entries) : Option Entries :=
  descend true (fun isDotted inner =>
    if isDotted == path.isEmpty || inner.contains key then none
    else some (inner.insert key (.value v))) path false entries

/-- Opens a table by its header; it may be implied by an earlier header. -/
def openTable (path : List Text) (key : Text) (entries : Entries) : Option Entries :=
  descend false (fun _ inner =>
    match inner.get? key with
    | none => some (inner.insert key (.table false false []))
    | some (.table true false old) => some (inner.insert key (.table false false old))
    | some _ => none) path false entries

/-- Adds a table to a list of tables by its header. -/
def openElement (path : List Text) (key : Text) (entries : Entries) : Option Entries :=
  descend false (fun _ inner =>
    match inner.get? key with
    | none => some (inner.insert key (.tables [[]]))
    | some (.tables elements) => some (inner.insert key (.tables (elements ++ [[]])))
    | some _ => none) path false entries

end Entries

end PhpLint.Toml
