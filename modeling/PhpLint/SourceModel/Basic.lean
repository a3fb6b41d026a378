import PhpLint.Declaration.Class
import PhpLint.Declaration.Function
import PhpLint.Declaration.Import
import PhpLint.Declaration.Property

/-!
The structural model of one source file: what it declares, in source order.
-/

namespace PhpLint

structure SourceModel where
  /-- The namespace that was declared last. -/
  namespaceName : Option Text := none
  strictTypes : Bool := false
  imports : List Import := []
  classes : List ClassDecl := []
  properties : List Property := []
  functions : List FunctionDecl := []
  /-- The brace depth at the end; zero for balanced input. -/
  finalDepth : Int := 0
  deriving DecidableEq, Repr

namespace SourceModel

def hasDeclarations (m : SourceModel) : Bool :=
  !m.classes.isEmpty || !m.functions.isEmpty || !m.properties.isEmpty

/-- The first class of a name. -/
def findClass? (m : SourceModel) (name : Text) : Option ClassDecl :=
  m.classes.find? fun c => c.name == name

/-- The methods of all classes of a name. -/
def methodsOf (m : SourceModel) (className : Text) : List FunctionDecl :=
  m.functions.filter fun f => f.className == some className

/-- The functions outside classes. -/
def freeFunctions (m : SourceModel) : List FunctionDecl :=
  m.functions.filter fun f => !f.isMethod

end SourceModel

end PhpLint
