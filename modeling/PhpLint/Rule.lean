import PhpLint.Check.Layout
import PhpLint.Check.Naming
import PhpLint.Check.Structure
import PhpLint.Check.Typing
import PhpLint.Settings

/-!
The rules: their names and codes, the limits that some of them have, and what
each of them checks.
-/

namespace PhpLint

/-- The limits of the rules that measure. -/
structure Limits where
  maxLineLength : Nat
  maxClassLength : Nat
  maxMethodLength : Nat
  maxComplexity : Nat
  deriving DecidableEq, Repr

namespace Limits

def default : Limits :=
  { maxLineLength := 120, maxClassLength := 500, maxMethodLength := 50, maxComplexity := 10 }

def strict : Limits :=
  { maxLineLength := 100, maxClassLength := 300, maxMethodLength := 30, maxComplexity := 8 }

end Limits

/-- The rules without their limits, in the order of reports. -/
inductive RuleKind where
  | namingConvention
  | constantNaming
  | variableNaming
  | psr12Compliance
  | classLength
  | cyclomaticComplexity
  | unusedImports
  | namespaceDeclaration
  | missingDocblock
  | paramDoc
  | returnDoc
  | throwsDoc
  | parameterType
  | propertyType
  | returnType
  | strictTypes
  deriving DecidableEq, Repr

namespace RuleKind

def all : List RuleKind :=
  [.namingConvention, .constantNaming, .variableNaming, .psr12Compliance, .classLength,
    .cyclomaticComplexity, .unusedImports, .namespaceDeclaration, .missingDocblock, .paramDoc,
    .returnDoc, .throwsDoc, .parameterType, .propertyType, .returnType, .strictTypes]

def name : RuleKind → String
  | .namingConvention => "naming-convention"
  | .constantNaming => "constant-naming"
  | .variableNaming => "variable-naming"
  | .psr12Compliance => "psr12-compliance"
  | .classLength => "class-length"
  | .cyclomaticComplexity => "cyclomatic-complexity"
  | .unusedImports => "unused-imports"
  | .namespaceDeclaration => "namespace-declaration"
  | .missingDocblock => "missing-docblock"
  | .paramDoc => "param-doc"
  | .returnDoc => "return-doc"
  | .throwsDoc => "throws-doc"
  | .parameterType => "parameter-type"
  | .propertyType => "property-type"
  | .returnType => "return-type"
  | .strictTypes => "strict-types"

def code : RuleKind → String
  | .namingConvention => "PG001"
  | .constantNaming => "PG002"
  | .variableNaming => "PG003"
  | .psr12Compliance => "PG004"
  | .classLength => "PG010"
  | .cyclomaticComplexity => "PG011"
  | .unusedImports => "PG012"
  | .namespaceDeclaration => "PG013"
  | .missingDocblock => "PG020"
  | .paramDoc => "PG021"
  | .returnDoc => "PG022"
  | .throwsDoc => "PG023"
  | .parameterType => "PG030"
  | .propertyType => "PG031"
  | .returnType => "PG032"
  | .strictTypes => "PG033"

def description : RuleKind → String
  | .namingConvention => "Classes in PascalCase; functions, methods and properties in camelCase"
  | .constantNaming => "Constants must be in CONSTANT_CASE"
  | .variableNaming => "Variables must be in camelCase or snake_case"
  | .psr12Compliance => "Checks PSR-12 file layout, indentation and line length"
  | .classLength => "Limits the length of classes and methods"
  | .cyclomaticComplexity => "Limits the cyclomatic complexity of functions"
  | .unusedImports => "Imports must be referenced after the import block"
  | .namespaceDeclaration => "Files declaring classes must declare a namespace"
  | .missingDocblock => "Classes, functions and properties must have a PHPDoc block"
  | .paramDoc => "Every parameter needs an @param tag, and every @param tag a parameter"
  | .returnDoc => "Declared return types need a matching @return tag"
  | .throwsDoc => "Thrown exceptions need an @throws tag"
  | .parameterType => "Parameters must declare a type"
  | .propertyType => "Properties must declare a type"
  | .returnType => "Functions and methods must declare a return type"
  | .strictTypes => "Files with declarations must declare strict_types=1"

/-- The rule with a name or a code, in any ASCII case. -/
def ofName? (nameOrCode : Text) : Option RuleKind :=
  all.find? fun k =>
    Text.eqAsciiCase k.name.toList nameOrCode || Text.eqAsciiCase k.code.toList nameOrCode

end RuleKind

/-- A rule with its limits; a rule that measures nothing does not look at them. -/
structure Rule where
  kind : RuleKind
  limits : Limits := .default
  deriving DecidableEq, Repr

namespace Rule

def name (r : Rule) : String := r.kind.name

def code (r : Rule) : String := r.kind.code

def description (r : Rule) : String := r.kind.description

/-- The issues of a file. -/
def check (r : Rule) (ctx : FileContext) (m : SourceModel) : List Issue :=
  match r.kind with
  | .namingConvention => Check.namingConvention ctx m
  | .constantNaming => Check.constantNaming ctx
  | .variableNaming => Check.variableNaming ctx
  | .psr12Compliance => Check.layoutCompliance r.limits.maxLineLength ctx m
  | .classLength => Check.classLength r.limits.maxClassLength r.limits.maxMethodLength ctx m
  | .cyclomaticComplexity => Check.cyclomaticComplexity r.limits.maxComplexity ctx m
  | .unusedImports => Check.unusedImports ctx m
  | .namespaceDeclaration => Check.namespaceDeclaration ctx m
  | .missingDocblock => Check.missingDocblock ctx m
  | .paramDoc => Check.paramDoc ctx m
  | .returnDoc => Check.returnDoc ctx m
  | .throwsDoc => Check.throwsDoc ctx m
  | .parameterType => Check.parameterType ctx m
  | .propertyType => Check.propertyType ctx m
  | .returnType => Check.returnType ctx m
  | .strictTypes => Check.strictTypes ctx m

end Rule

end PhpLint
