import PhpLint.Proofs.Declaration.PropertyText
import PhpLint.Proofs.SourceModel.ClassLines

/-!
Property statements under the structural parser. Of a class with one statement in its body the
properties of that statement are recorded, and nothing else but the class. Which properties those
are is said exactly: a word search over the whole statement can switch it off, and a default with
angle brackets can run into its neighbours.
-/

namespace PhpLint

/-- A header of nothing but the name. -/
def ClassHeader.bare (name : Text) (named : Code.isIdentifier name = true) : ClassHeader where
  mark := none
  name
  parent := none
  interfaces := []
  named

namespace PropertyStatement

open SourceModel

variable (s : PropertyStatement) (className indent : Text)

/-- A class with the statement as its only line. -/
def file : List Text := ["class ".toList ++ className ++ [' ', '\x7b'], indent ++ s.text, ['\x7d']]

/-- The logical line of the statement. -/
def line (number : Nat) : LogicalLine :=
  .single number {} { keepLiterals := true } (indent ++ s.text)

variable {indent}

section Line

variable (hindent : Code.IsGap indent)
include hindent

theorem scrub_text (keep : Bool) :
    ∃ code, ({ keepLiterals := keep } : Scrubber).scrub (indent ++ s.text) =
      (if keep then indent ++ s.text else code, { keepLiterals := keep }) ∧
        Code.braceDelta code = 0 := by
  obtain ⟨code, hscan, hbraces⟩ := s.uncommented_text hindent
  refine ⟨code, hscan.scrub_eq keep, Code.braceDelta_of_not_mem ?_ ?_⟩
  · exact fun hopen => hbraces _ hopen (by simp)
  · exact fun hclose => hbraces _ hclose (by simp)

theorem line_text (number : Nat) : (s.line indent number).text = indent ++ s.text := by
  obtain ⟨code, hscrub, -⟩ := s.scrub_text hindent true
  rw [line, LogicalLine.single, hscrub, if_pos rfl]

theorem line_braceDelta (number : Nat) : (s.line indent number).braceDelta = 0 := by
  obtain ⟨code, hscrub, hdelta⟩ := s.scrub_text hindent false
  rw [line, LogicalLine.single, hscrub, if_neg (by simp), hdelta]

theorem trimStart_indent : Text.trimStart (indent ++ s.text) = s.text := by
  rw [Text.trimStart_append_of_blank fun c hc => (hindent c hc).1, s.trimStart_text]

theorem stripAttributes_text : Code.stripAttributes (indent ++ s.text) = s.text := by
  have htrim := s.trimStart_indent hindent
  rw [Code.stripAttributes_of_head_ne, htrim]
  obtain ⟨c, rest, haccess, hc⟩ := s.access_cons
  rw [htrim, text, haccess]
  intro hhash
  obtain rfl := Option.some.inj hhash
  exact absurd hc (by decide)

/-- The statement is a logical line of its own. -/
theorem ofLinesFrom_line (number : Nat) (lines : List Text) :
    LogicalLine.ofLinesFrom number {} { keepLiterals := true } none ((indent ++ s.text) :: lines) =
      s.line indent number ::
        LogicalLine.ofLinesFrom (number + 1) {} { keepLiterals := true } none lines := by
  have hplain : (s.line indent number).continues = false := rfl
  have hsingle : LogicalLine.single number {} { keepLiterals := true } (indent ++ s.text) =
      s.line indent number := rfl
  have hpending : LogicalLine.pending? (s.line indent number) (LogicalLine.nextLine lines) =
      none := by
    rw [LogicalLine.pending?, s.line_text hindent, s.stripAttributes_text hindent,
      s.readHead?_function, s.readHead?_class]
    rfl
  obtain ⟨code, htext, -⟩ := s.scrub_text hindent true
  obtain ⟨code', hcode, -⟩ := s.scrub_text hindent false
  rw [LogicalLine.ofLinesFrom_single, hsingle, hplain, if_neg (by simp), hpending, htext, hcode]

end Line

/-- What is recorded of the class, with the given properties. -/
def model (strict : Bool) (properties : List Property) : SourceModel where
  strictTypes := strict
  classes := [{ name := className, kind := .ordinary, startLine := 1, endLine := some 3 }]
  properties

theorem header_eq {className : Text} (named : Code.isIdentifier className = true) :
    "class ".toList ++ className ++ [' ', '\x7b'] = (ClassHeader.bare className named).text := by
  simp [ClassHeader.text, ClassHeader.lead, ClassHeader.tail, ClassHeader.parentClause,
    ClassHeader.interfaceClause, ClassHeader.bare]

/-- The line of the closing brace. -/
def lastLine : LogicalLine := .single 3 {} { keepLiterals := true } ['\x7d']

theorem ofLines_lines (named : Code.isIdentifier className = true) (hindent : Code.IsGap indent) :
    LogicalLine.ofLines (s.file className indent) =
      [(ClassHeader.bare className named).line 1 [], s.line indent 2, lastLine] := by
  have hheader : "class ".toList ++ className ++ [' ', '\x7b'] =
      (ClassHeader.bare className named).text ++ [] := by
    rw [header_eq named, List.append_nil]
  have hlast : LogicalLine.ofLinesFrom 3 {} { keepLiterals := true } none [['\x7d']] =
      [lastLine] := by
    decide +kernel
  have hscan (keep : Bool) : Scrubber.scan keep .code [] = ([], .code) := by simp [Scrubber.scan]
  rw [LogicalLine.ofLines, file, hheader, ClassHeader.ofLinesFrom_line, hscan, hscan,
    s.ofLinesFrom_line hindent, hlast]

/-- The state in the body of the class. -/
def inside (strict : Bool) (properties : List Property) : Reading where
  depth := 1
  openClass := some
    { decl := { name := className, kind := .ordinary, startLine := 1 }
      depth := 0
      bodySeen := true }
  model := { strictTypes := strict, properties }

section Steps

variable (lines : List Text)

theorem step_header {className : Text} (named : Code.isIdentifier className = true) :
    ∃ strict, Reading.step lines {} ((ClassHeader.bare className named).line 1 []) =
      .ok (inside className strict []) := by
  have hfree : (ClassHeader.bare className named).Unreserved := by
    simp [ClassHeader.Unreserved, ClassHeader.bare]
  have hdelta : ((ClassHeader.bare className named).line 1 []).braceDelta = 1 := by
    rw [ClassHeader.line_braceDelta, Scrubber.scan]
    rfl
  have hopens := Reading.step_header lines (r := {}) rfl hfree 1 []
  rw [hdelta, Reading.closeClass_of_lt rfl rfl Int.zero_lt_one] at hopens
  exact ⟨_, hopens⟩

theorem step_line (hindent : Code.IsGap indent) (hdoc : DocBlock.above? lines 2 = none)
    (strict : Bool) :
    ∃ strict', Reading.step lines (inside className strict []) (s.line indent 2) =
      .ok (inside className strict' (Property.read 2 className false s.text)) := by
  have hspace : readNamespace? (s.line indent 2).text = none := by
    rw [readNamespace?, s.line_text hindent, s.trimStart_indent hindent,
      s.keyword?_text (by decide)]
    rfl
  have htraits : ClassDecl.readTraits (s.line indent 2).text = [] := by
    rw [ClassDecl.readTraits, s.line_text hindent, s.trimStart_indent hindent,
      s.keyword?_text (by decide)]
    rfl
  have hstrip : Code.stripAttributes (s.line indent 2).text = s.text := by
    rw [s.line_text hindent, s.stripAttributes_text hindent]
  have hread : (Property.read (s.line indent 2).first className false
      (Code.stripAttributes (s.line indent 2).text)).map
        (fun p => { p with doc := DocBlock.above? lines (s.line indent 2).first }) =
          Property.read 2 className false s.text := by
    have hfirst : (s.line indent 2).first = 2 := rfl
    rw [hfirst, hdoc, hstrip, s.read_text]
    split
    · rfl
    · rw [List.map_map]
      rfl
  have hbody := Reading.step_body lines (r := inside className strict []) rfl rfl rfl hspace htraits
    (by rw [hstrip, s.readHead?_function])
  rw [s.line_braceDelta hindent, Reading.closeClass_of_lt rfl rfl Int.zero_lt_one] at hbody
  exact ⟨_, hbody.trans (by rw [← hread]; rfl)⟩

theorem step_lastLine (strict : Bool) (properties : List Property) :
    Reading.step lines (inside className strict properties) lastLine =
      .ok { model := model className strict properties } := by
  have htext : lastLine.text = ['\x7d'] := by decide +kernel
  have hdelta : lastLine.braceDelta = -1 := by decide +kernel
  have hstrip : Code.stripAttributes ['\x7d'] = ['\x7d'] :=
    Code.stripAttributes_of_dropAttribute? rfl
  have hspace : readNamespace? lastLine.text = none := by
    rw [htext]
    rfl
  have hfunction : FunctionDecl.readHead? (Code.stripAttributes lastLine.text) = none := by
    rw [htext, hstrip]
    decide +kernel
  have hbody := Reading.step_body lines (r := inside className strict properties) rfl rfl rfl hspace
    (by rw [htext]; rfl) hfunction
  have hnone (number : Nat) : Property.read number className false ['\x7d'] = [] := by
    have hother : Property.isOtherMember ['\x7d'] = false := by decide +kernel
    have hhead : Property.readHead? ['\x7d'] = none := by decide +kernel
    rw [Property.read, hother, hhead]
    rfl
  rw [hdelta, htext, hstrip, Reading.closeClass_of_le rfl rfl (Int.le_refl 0)] at hbody
  have hstrict : declaresStrictTypes ['\x7d'] = false := rfl
  rw [hbody]
  simp only [inside, hnone, hstrict, Bool.or_false, List.map_nil, List.append_nil]
  rfl

end Steps

/-- The class is recorded, with the properties that are read from the statement. -/
theorem ofLines_file (named : Code.isIdentifier className = true) (hindent : Code.IsGap indent) :
    ∃ strict, ofLines (s.file className indent) =
      .ok (model className strict (Property.read 2 className false s.text)) := by
  have hdoc : DocBlock.above? (s.file className indent) 2 = none := by
    rw [file, header_eq named]
    exact ClassHeader.above?_text _ _
  obtain ⟨opened, hheader⟩ := step_header (s.file className indent) named
  obtain ⟨strict, hline⟩ := s.step_line className _ hindent hdoc opened
  have hlast := step_lastLine className (s.file className indent) strict
    (Property.read 2 className false s.text)
  refine ⟨strict, ofLines_eq_ok_iff.mpr ⟨{ model := model className strict _ }, ?_, rfl⟩⟩
  rw [s.ofLines_lines className named hindent]
  exact Reading.run_cons.mpr ⟨_, hheader, Reading.run_cons.mpr ⟨_, hline,
    Reading.run_cons.mpr ⟨_, hlast, rfl⟩⟩⟩

section Recorded

variable {className}

theorem property_injective (line : Nat) (className : Text) :
    Function.Injective (s.property line className) := by
  intro item other h
  obtain ⟨name, default⟩ := item
  obtain ⟨name', default'⟩ := other
  simp only [property, Property.mk.injEq] at h
  simp [h]

/-- A property with a literal as its default, or without one, is recorded as it was written,
unless the word of a function or of a constant is part of its type, its name or its literal. If
one is, nothing is recorded. -/
theorem property_recorded (named : Code.isIdentifier className = true)
    (hindent : Code.IsGap indent) {item : Property.Item} (hone : s.items = [item])
    (hliteral : ∀ d ∈ item.default, Code.IsLiteral d) :
    ∃ strict, ofLines (s.file className indent) =
      .ok (model className strict
        (if s.mentionsOther then [] else [s.property 2 className item])) := by
  obtain ⟨strict, hmodel⟩ := s.ofLines_file className named hindent
  have hitems : Property.items s.names = s.items := by
    refine (Property.items_listed s.nonempty s.written).mpr fun i hi d hd => ?_
    rw [hone, List.mem_singleton] at hi
    subst hi
    exact ((hliteral d hd).isConstant _).isPart
  refine ⟨strict, ?_⟩
  rw [hmodel, s.read_text, hitems, hone, List.map_singleton]

theorem isLiteral_title : Code.IsLiteral "'Yes, no'".toList :=
  ⟨"Yes, no".toList, rfl, List.all_iff_forall_prop.mp (by decide)⟩

/-- A type, and a literal with a comma in it. -/
def titleStatement : PropertyStatement where
  access := "Protected".toList
  visibility := .prot
  type := some { rooted := true, segments := ["Core", "Label"].map String.toList
                 nonempty := by decide, named := by decide }
  items := [⟨"title".toList, some "'Yes, no'".toList⟩]
  accessed := by decide
  nonempty := by simp
  written := by
    simp only [List.mem_singleton, forall_eq]
    exact ⟨by decide, fun d hd => Option.some.inj hd ▸ isLiteral_title.isConstant _⟩

theorem property_recorded_typed :
    ∃ strict, ofLines (titleStatement.file "Page".toList "  ".toList) =
      .ok (model "Page".toList strict
        [{ line := 2, name := "title".toList, visibility := .prot, isStatic := false
           readonly := false, className := "Page".toList
           declaredType := some "\\Core\\Label".toList, default := some "'Yes, no'".toList }]) := by
  have named : Code.isIdentifier "Page".toList = true := by decide
  have hindent : Code.IsGap "  ".toList := by decide
  obtain ⟨strict, hmodel⟩ := titleStatement.property_recorded named hindent rfl
    fun d hd => Option.some.inj hd ▸ isLiteral_title
  have hfree : titleStatement.mentionsOther = false := by decide +kernel
  refine ⟨strict, ?_⟩
  rw [hmodel, hfree]
  rfl

/-- A public statement without a type. -/
def ofItems (items : List Property.Item) (nonempty : items ≠ [])
    (written : ∀ item ∈ items, item.Written) : PropertyStatement where
  access := "public".toList
  visibility := .pub
  type := none
  items
  accessed := by decide
  nonempty
  written

theorem isLiteral_const : Code.IsLiteral "'const'".toList :=
  ⟨"const".toList, rfl, List.all_iff_forall_prop.mp (by decide)⟩

/-- A literal that is the word of a constant. -/
def constStatement : PropertyStatement :=
  ofItems [⟨"x".toList, some "'const'".toList⟩] (by simp) <| by
    simp only [List.mem_singleton, forall_eq]
    exact ⟨by decide, fun d hd => Option.some.inj hd ▸ isLiteral_const.isConstant _⟩

/-- Nothing is recorded of it. -/
theorem no_property_of_const_literal :
    constStatement.text = "public $x = 'const';".toList ∧ Code.IsLiteral "'const'".toList ∧
      SourceModel.properties <$> ofLines (constStatement.file "A".toList []) = .ok [] :=
  ⟨by decide, isLiteral_const, by decide +kernel⟩

/-- The properties of a list are recorded as they were written exactly if no word of a function
or of a constant is part of the statement, and every default is one part of the list. The
latter is so without angle brackets, whatever else stands in the defaults; an angle bracket
that has no counterpart hides the comma behind it. -/
theorem properties_recorded (named : Code.isIdentifier className = true)
    (hindent : Code.IsGap indent) :
    ∃ strict properties, ofLines (s.file className indent) =
        .ok (model className strict properties) ∧
      (properties = s.items.map (s.property 2 className) ↔
        s.mentionsOther = false ∧ ∀ item ∈ s.items, item.IsOnePart) ∧
      (s.mentionsOther = true → properties = []) ∧
      (s.mentionsOther = false →
        (∀ item ∈ s.items, ∀ d ∈ item.default, Code.IsConstant Code.plainOperators false d) →
          properties = s.items.map (s.property 2 className)) := by
  obtain ⟨strict, hmodel⟩ := s.ofLines_file className named hindent
  have hparts : Property.items s.names = s.items ↔ ∀ item ∈ s.items, item.IsOnePart :=
    Property.items_listed s.nonempty s.written
  refine ⟨strict, _, hmodel, ?_⟩
  rw [s.read_text]
  cases s.mentionsOther with
  | true =>
    have hne : [] ≠ s.items.map (s.property 2 className) := fun hnil =>
      s.nonempty (List.map_eq_nil_iff.mp hnil.symm)
    simp [hne]
  | false =>
    have hmap : (Property.items s.names).map (s.property 2 className) =
        s.items.map (s.property 2 className) ↔ ∀ item ∈ s.items, item.IsOnePart := by
      rw [(List.map_injective_iff.mpr (s.property_injective 2 className)).eq_iff, hparts]
    simp only [Bool.false_eq_true, if_false, hmap, true_and, false_imp_iff]
    exact fun _ hplain item hitem d hd => (hplain item hitem d hd).isPart

/-- A digit is a constant. -/
theorem isConstant_digit {c : Char} (hc : Text.isIdentPart c = true) (listed : Bool) :
    Code.IsConstant Code.operators listed [c] :=
  .word (by simp) (by simpa using hc)

/-- A constant with an operator and a digit behind it. -/
theorem isConstant_operator (op : Text) (hop : op ∈ Code.operators) {s : Text}
    (hs : Code.IsConstant Code.operators false s) {c : Char} (hc : Text.isIdentPart c = true) :
    Code.IsConstant Code.operators false (s ++ [' '] ++ op ++ [' '] ++ [c]) :=
  .joined (List.mem_append_left _ (List.mem_cons_of_mem _ hop)) (by decide) (by decide) hs
    (isConstant_digit hc false)

/-- A list with a comma, a name without a default, and two shifts that match. -/
def maskStatement : PropertyStatement :=
  ofItems [⟨"sizes".toList, some "[1, 2]".toList⟩, ⟨"open".toList, none⟩,
    ⟨"mask".toList, some "1 << 2 >> 3".toList⟩] (by simp) <| by
    have hpair : Code.IsConstant Code.operators true (['1'] ++ [] ++ [','] ++ [' '] ++ ['2']) :=
      .joined (by decide) (by decide) (by decide) (isConstant_digit (by decide) true)
        (isConstant_digit (by decide) true)
    have hbrackets : ('[', ']') ∈ Code.brackets := by decide
    have hgap : Code.IsGap [] := by decide
    have hlist : Code.IsConstant Code.operators false "[1, 2]".toList :=
      .bracketed hbrackets hgap hgap hpair
    have hshift := isConstant_operator ['<', '<'] (by decide)
      (isConstant_digit (c := '1') (by decide) false) (c := '2') (by decide)
    have hshifts : Code.IsConstant Code.operators false "1 << 2 >> 3".toList :=
      isConstant_operator ['>', '>'] (by decide) hshift (c := '3') (by decide)
    simp only [List.forall_mem_cons]
    exact ⟨⟨by decide, fun d hd => Option.some.inj hd ▸ hlist⟩, ⟨by decide, by simp⟩,
      ⟨by decide, fun d hd => Option.some.inj hd ▸ hshifts⟩, by simp⟩

theorem properties_recorded_mask :
    ∃ strict, ofLines (maskStatement.file "Page".toList []) =
      .ok (model "Page".toList strict
        (maskStatement.items.map (maskStatement.property 2 "Page".toList))) := by
  have named : Code.isIdentifier "Page".toList = true := by decide
  have hindent : Code.IsGap [] := by decide
  obtain ⟨strict, properties, hmodel, hiff, -, -⟩ :=
    maskStatement.properties_recorded named hindent
  have hparts : ∀ item ∈ maskStatement.items, item.IsOnePart := by
    refine List.forall_mem_cons.mpr ⟨fun d hd => ?_, List.forall_mem_cons.mpr
      ⟨fun d hd => ?_, List.forall_mem_cons.mpr ⟨fun d hd => ?_, List.forall_mem_nil _⟩⟩⟩
    · exact Option.some.inj hd ▸ ⟨by decide, by decide⟩
    · cases hd
    · exact Option.some.inj hd ▸ ⟨by decide, by decide⟩
  exact ⟨strict, hiff.mpr ⟨by decide +kernel, hparts⟩ ▸ hmodel⟩

/-- Two defaults, one of them with a shift. -/
def shiftStatement : PropertyStatement :=
  ofItems [⟨"a".toList, some "1 << 2".toList⟩, ⟨"b".toList, some "3".toList⟩] (by simp) <| by
    have hshift : Code.IsConstant Code.operators false "1 << 2".toList :=
      isConstant_operator ['<', '<'] (by decide)
        (isConstant_digit (c := '1') (by decide) false) (c := '2') (by decide)
    have hnumber : Code.IsConstant Code.operators false "3".toList :=
      isConstant_digit (by decide) false
    simp only [List.forall_mem_cons]
    exact ⟨⟨by decide, fun d hd => Option.some.inj hd ▸ hshift⟩,
      ⟨by decide, fun d hd => Option.some.inj hd ▸ hnumber⟩, by simp⟩

/-- The second one is lost in the default of the first one. -/
theorem property_of_unclosed_shift :
    shiftStatement.text = "public $a = 1 << 2, $b = 3;".toList ∧
      shiftStatement.mentionsOther = false ∧
      SourceModel.properties <$> ofLines (shiftStatement.file "A".toList []) =
        .ok [shiftStatement.property 2 "A".toList
          ⟨"a".toList, some "1 << 2, $b = 3;".toList⟩] :=
  ⟨by decide, by decide +kernel, by decide +kernel⟩

end Recorded

end PropertyStatement

end PhpLint
