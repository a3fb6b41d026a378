import PhpLint.Check.Documentation

/-!
Rules on declared types: parameters, properties and results have them, and files
with declarations are strict about them.
-/

namespace PhpLint.Check

/-- Parameters have declared types. -/
def parameterType (ctx : FileContext) (m : SourceModel) : List Issue :=
  m.functions.flatMap fun f =>
    (f.parameters.filter fun (_, p) => p.declaredType.isNone).map fun (name, _) =>
      ctx.issue f.line ("Missing type declaration for parameter " ++ Text.named ('$' :: name) ++
        " in " ++ functionLabel f ++ ".")

/-- Properties have declared types. -/
def propertyType (ctx : FileContext) (m : SourceModel) : List Issue :=
  (m.properties.filter fun p => p.declaredType.isNone).map fun p =>
    ctx.issue p.line ("Missing type declaration for " ++ p.visibility.name ++ " property " ++
      Text.named ('$' :: p.name) ++ " in class " ++ p.className.named ++ ".")

/-- Functions have declared results; constructors are exempt. -/
def returnType (ctx : FileContext) (m : SourceModel) : List Issue :=
  (m.functions.filter fun f => !f.isConstructorOrDestructor && !f.hasReturnType).map fun f =>
    ctx.issue f.line ("Missing return type declaration for " ++ functionLabel f ++ ".")

/-- Files with declarations declare strict types. -/
def strictTypes (ctx : FileContext) (m : SourceModel) : List Issue :=
  if m.strictTypes || !m.hasDeclarations then []
  else
    [(ctx.issue 1 "Missing declare(strict_types=1) declaration.").withHelp
      "add `declare(strict_types=1);` right after the opening tag"]

end PhpLint.Check
