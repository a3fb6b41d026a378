import PhpLint.Keyed
import PhpLint.TypeExpr.Basic

/-!
Documentation blocks: the summary, the description and the tags of a doc comment
together with the lines it spans.
-/

namespace PhpLint

/-- A documented parameter. -/
structure ParamTag where
  name : Text
  type : TypeExpr
  description : Option Text
  variadic : Bool
  byReference : Bool
  deriving DecidableEq, Repr

/-- The documented result. -/
structure ReturnTag where
  type : TypeExpr
  description : Option Text
  deriving DecidableEq, Repr

/-- A documented exception; its type is written without a leading backslash. -/
structure ThrowsTag where
  type : TypeExpr
  description : Option Text
  deriving DecidableEq, Repr

def ThrowsTag.exception (t : ThrowsTag) : Text := t.type.raw

def ThrowsTag.shortName (t : ThrowsTag) : Text := PhpLint.shortName t.type.raw

/-- A documented variable or property. -/
structure VarTag where
  type : TypeExpr
  name : Option Text
  description : Option Text
  deriving DecidableEq, Repr

structure DocBlock where
  startLine : Nat
  endLine : Nat
  raw : Text
  summary : Text := []
  description : Text := []
  /-- Parameters under their names. -/
  params : Keyed Text ParamTag := []
  returns : Option ReturnTag := none
  /-- Exceptions under their short names. -/
  throws : Keyed Text ThrowsTag := []
  var : Option VarTag := none
  deprecated : Bool := false
  deprecatedMessage : Option Text := none
  /-- The bodies of all other tags under the tag's name. -/
  tags : Keyed Text (List Text) := []
  deriving DecidableEq, Repr

namespace DocBlock

/-- A look-up that found nothing. -/
inductive LookupError where
  | noParam (name : Text)
  | noThrows (exception : Text)
  deriving DecidableEq, Repr

def LookupError.message : LookupError → String
  | .noParam name => "no @param tag for parameter \"" ++ String.ofList name ++ "\""
  | .noThrows exception => "no @throws tag for \"" ++ String.ofList exception ++ "\""

def hasParam (doc : DocBlock) (name : Text) : Bool := doc.params.contains name

def param (doc : DocBlock) (name : Text) : Except LookupError ParamTag :=
  match doc.params.get? name with
  | some tag => .ok tag
  | none => .error (.noParam name)

/-- Exceptions are looked up by their short names. -/
def hasThrows (doc : DocBlock) (exception : Text) : Bool :=
  doc.throws.contains (shortName exception)

def throwsTag (doc : DocBlock) (exception : Text) : Except LookupError ThrowsTag :=
  match doc.throws.get? (shortName exception) with
  | some tag => .ok tag
  | none => .error (.noThrows exception)

/-- The bodies of the tags with a name. -/
def tagBodies (doc : DocBlock) (name : Text) : List Text := (doc.tags.get? name).getD []

end DocBlock

end PhpLint
