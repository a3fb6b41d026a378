import PhpLint.Rule

/-!
Presets, and the rules that settings select. Presets are made from one another: the one of
all rules has one more than the recommended one, and the strict one has lower limits in the
places of the rules that measure. Rules that a table of their own turns on come behind those
of the preset, and all of them are sorted. Every limit comes from the table of its rule, and
else from the preset.
-/

namespace PhpLint

inductive Preset where
  | recommended
  | strict
  | minimal
  | all
  deriving DecidableEq, Repr

namespace Preset

/-- All presets in the order of display. -/
def every : List Preset := [.recommended, .strict, .minimal, .all]

def name : Preset → String
  | .recommended => "recommended"
  | .strict => "strict"
  | .minimal => "minimal"
  | .all => "all"

/-- The preset with a name, in any ASCII case. -/
def ofName? (name : Text) : Option Preset :=
  every.find? fun p => p.name.toList == Text.asciiLower name

end Preset

/-- Limits with those that the table of a rule gives. -/
def Limits.withTable (l : Limits) (kind : RuleKind) (table : RuleSettings) : Limits :=
  match kind with
  | .psr12Compliance =>
    { l with maxLineLength := table.natOption "max_line_length" l.maxLineLength }
  | .classLength =>
    { l with
      maxClassLength := table.natOption "max_class_length" l.maxClassLength
      maxMethodLength := table.natOption "max_method_length" l.maxMethodLength }
  | .cyclomaticComplexity =>
    { l with maxComplexity := table.natOption "max_complexity" l.maxComplexity }
  | _ => l

namespace Settings

/-- A rule with some limits, and with those that its table gives in their place. -/
def configured (s : Settings) (kind : RuleKind) (limits : Limits) : Rule :=
  { kind, limits := limits.withTable kind ((s.rule kind.name).getD {}) }

end Settings

/-- Puts a rule in the place of the first one of its name. -/
def Rule.replaceIn (rule : Rule) : List Rule → List Rule
  | [] => []
  | r :: rest => if r.name = rule.name then rule :: rest else r :: replaceIn rule rest

namespace Preset

/-- The kinds of rules of the recommended preset. -/
def recommendedKinds : List RuleKind :=
  [.namingConvention, .constantNaming, .variableNaming, .classLength, .cyclomaticComplexity,
    .unusedImports, .namespaceDeclaration, .missingDocblock, .paramDoc, .returnDoc, .throwsDoc,
    .parameterType, .propertyType, .returnType, .strictTypes]

def recommendedRules (s : Settings) : List Rule :=
  recommendedKinds.map fun kind => s.configured kind .default

/-- The rule on layout has its place behind the rules on names. -/
def allRules (s : Settings) : List Rule :=
  (recommendedRules s).insertIdx 3 (s.configured .psr12Compliance .default)

/-- The kinds of rules that are stricter in the strict preset. -/
def tightenedKinds : List RuleKind := [.psr12Compliance, .classLength, .cyclomaticComplexity]

def strictRules (s : Settings) : List Rule :=
  tightenedKinds.foldl (fun rules kind => (s.configured kind .strict).replaceIn rules) (allRules s)

def minimalRules : List Rule := [{ kind := .namingConvention }, { kind := .strictTypes }]

/-- The rules of a preset with the limits that settings give. -/
def rules (p : Preset) (s : Settings) : List Rule :=
  match p with
  | .recommended => recommendedRules s
  | .strict => strictRules s
  | .minimal => minimalRules
  | .all => allRules s

end Preset

/-- The place of a rule in the order of reports. -/
def RuleKind.position (k : RuleKind) : Nat := RuleKind.all.idxOf k

namespace Settings

/-- The chosen preset; an unknown one stands for the recommended one. -/
def chosenPreset (s : Settings) : Preset :=
  (s.preset.bind Preset.ofName?).getD .recommended

/-- Whether the table of a rule turns it on. -/
def turnsOn (s : Settings) (k : RuleKind) : Bool :=
  match s.rule k.name with
  | some r => r.enabled == some true
  | none => false

/-- One rule by its name or code, with default limits and those of its table. -/
def buildRule? (s : Settings) (nameOrCode : Text) : Option Rule :=
  (RuleKind.ofName? nameOrCode).map fun kind => s.configured kind .default

/-- Adds a rule that its table turns on, unless there is one of its name. -/
def addTurnedOn (s : Settings) (rules : List Rule) (k : RuleKind) : List Rule :=
  if s.turnsOn k && !rules.any (·.name == k.name) then
    rules ++ (s.buildRule? k.name.toList).toList
  else rules

/-- The rules that settings select, in the order of reports. Rules that are
turned off are among them; a run skips them. -/
def selectedRules (s : Settings) : List Rule :=
  (RuleKind.all.foldl s.addTurnedOn (s.chosenPreset.rules s)).mergeSort fun a b =>
    a.kind.position ≤ b.kind.position

end Settings

end PhpLint
