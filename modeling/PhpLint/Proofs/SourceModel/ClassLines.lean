import PhpLint.Proofs.Declaration.ClassHeader
import PhpLint.Proofs.SourceModel.Outside

/-!
The lines of a class under the structural parser. The line of a class header is a logical line
of its own, whatever stands behind the brace: the scrubbers keep the header, and what they leave
of the rest is read together with it. Such a line opens the class and records nothing else. A
line in the body of an open class adds its properties.
-/

namespace PhpLint

namespace ClassHeader

variable (h : ClassHeader)

/-- The brace is at the end, and nothing in front of it means anything to the scrubbers. -/
theorem text_eq : ∃ front, h.text = front ++ ['\x7b'] ∧
    ∀ c ∈ front, Code.isQualifiedPart c = true ∨ c = ' ' ∨ c = ',' := by
  have hlead : ∀ c ∈ h.lead, Code.isQualifiedPart c = true ∨ c = ' ' ∨ c = ',' := by
    unfold lead
    rcases h.mark with _ | _ | _ | _ <;> exact List.all_iff_forall_prop.mp (by decide)
  have hname : ∀ c ∈ h.name, Code.isQualifiedPart c = true := fun c hc => by
    simp [Code.isQualifiedPart, Code.isIdentPart_of_isIdentifier h.named c hc]
  have hparent : ∀ c ∈ h.parentClause, Code.isQualifiedPart c = true ∨ c = ' ' ∨ c = ',' := by
    unfold parentClause
    cases h.parent with
    | none => simp
    | some p =>
      refine List.forall_mem_append.mpr ⟨List.all_iff_forall_prop.mp (by decide), fun c hc => ?_⟩
      exact .inl (p.isQualifiedPart_text c hc)
  have hinterfaces :
      ∀ c ∈ h.interfaceClause, Code.isQualifiedPart c = true ∨ c = ' ' ∨ c = ',' := by
    unfold interfaceClause
    split
    · simp
    · refine List.forall_mem_append.mpr ⟨List.all_iff_forall_prop.mp (by decide), fun c hc => ?_⟩
      rcases Text.mem_join hc with hsep | ⟨part, hpart, hc⟩
      · rcases List.mem_pair.mp hsep with rfl | rfl <;> simp
      · obtain ⟨n, -, rfl⟩ := List.mem_map.mp hpart
        exact .inl (n.isQualifiedPart_text c hc)
  refine ⟨h.lead ++ (h.name ++ (h.parentClause ++ h.interfaceClause ++ [' '])), ?_, ?_⟩
  · simp [text, tail]
  · simp only [List.forall_mem_append]
    exact ⟨hlead, fun c hc => .inl (hname c hc), ⟨hparent, hinterfaces⟩, by simp⟩

theorem trimmed_text : Text.Trimmed h.text where
  starts := by
    rw [text, lead]
    rcases h.mark with _ | _ | _ | _ <;> exact ⟨_, rfl, by decide⟩
  ends := by
    obtain ⟨front, htext, -⟩ := h.text_eq
    exact ⟨'\x7b', by simp [htext], by decide⟩

theorem braceDelta_text (code : Text) :
    Code.braceDelta (h.text ++ code) = 1 + Code.braceDelta code := by
  obtain ⟨front, htext, hfront⟩ := h.text_eq
  have hnone {c : Char} (hpart : Code.isQualifiedPart c = false) (hsigns : c ≠ ' ' ∧ c ≠ ',') :
      c ∉ front := by
    intro hc
    simpa [hpart, hsigns] using hfront c hc
  have hdelta : Code.braceDelta front = 0 :=
    Code.braceDelta_of_not_mem (hnone rfl (by decide)) (hnone rfl (by decide))
  have hbrace : Code.braceDelta ['\x7b'] = 1 := rfl
  rw [Code.braceDelta_append, htext, Code.braceDelta_append, hdelta, hbrace, Int.zero_add]

theorem scrub_text (keep : Bool) (rest : Text) :
    ({ keepLiterals := keep } : Scrubber).scrub (h.text ++ rest) =
      (h.text ++ (Scrubber.scan keep .code rest).1,
        { keepLiterals := keep, mode := (Scrubber.scan keep .code rest).2 }) := by
  obtain ⟨front, htext, hfront⟩ := h.text_eq
  have hplain : ∀ c ∈ h.text, c ∉ ['/', '#', '<', '\'', '"', '`'] := by
    rw [htext]
    refine List.forall_mem_append.mpr ⟨fun c hc => ?_, List.all_iff_forall_prop.mp (by decide)⟩
    rcases hfront c hc with hpart | rfl | rfl
    · exact Text.not_mem_of_class hpart rfl
    · decide
    · decide
  have hscan : Scrubber.scrubFrom keep .code (h.text ++ rest) = _ :=
    Scrubber.scan_append_plain hplain keep rest
  rw [Scrubber.scrub, hscan]

/-- The logical line of a header with more text behind it. -/
def line (number : Nat) (rest : Text) : LogicalLine :=
  .single number {} { keepLiterals := true } (h.text ++ rest)

theorem line_text (number : Nat) (rest : Text) :
    (h.line number rest).text = h.text ++ (Scrubber.scan true .code rest).1 := by
  rw [line, LogicalLine.single, h.scrub_text true]

theorem line_code (number : Nat) (rest : Text) :
    (h.line number rest).code = h.text ++ (Scrubber.scan false .code rest).1 := by
  rw [line, LogicalLine.single, h.scrub_text false]

theorem line_braceDelta (number : Nat) (rest : Text) :
    (h.line number rest).braceDelta =
      1 + Code.braceDelta (Scrubber.scan false .code rest).1 := by
  rw [line, LogicalLine.single, h.scrub_text false, h.braceDelta_text]

theorem contains_line_code (number : Nat) (rest : Text) :
    (h.line number rest).code.contains '\x7b' = true := by
  obtain ⟨front, htext, -⟩ := h.text_eq
  simp [h.line_code, htext]

section NothingElse

variable (rest : Text)

theorem text_append : h.text ++ rest = h.lead ++ (h.name ++ h.tail ++ rest) :=
  List.append_assoc _ _ _

theorem stripAttributes_text : Code.stripAttributes (h.text ++ rest) = h.text ++ rest := by
  rw [text_append, lead]
  rcases h.mark with _ | _ | _ | _ <;> exact Code.stripAttributes_of_dropAttribute? rfl

theorem readNamespace?_text : SourceModel.readNamespace? (h.text ++ rest) = none := by
  rw [text_append, lead]
  rcases h.mark with _ | _ | _ | _ <;> rfl

theorem readStatement?_text : Import.readStatement? (h.text ++ rest) = none := by
  rw [text_append, lead]
  rcases h.mark with _ | _ | _ | _ <;> rfl

theorem readHead?_function : FunctionDecl.readHead? (h.text ++ rest) = none := by
  have hclass (t : Text) : Modifier.readAll FunctionDecl.modifiers ("class ".toList ++ t) =
      ([], "class ".toList ++ t) := Modifier.readAll_of_anyKeyword? rfl
  have hstart (t : Text) : Text.trimStart ("class ".toList ++ t) = "class ".toList ++ t := rfl
  have hother (t : Text) : Code.keyword? "function".toList ("class ".toList ++ t) = none := rfl
  rw [text_append, lead, FunctionDecl.readHead?_eq]
  cases h.mark with
  | none => simp only [hstart, hclass, hother, Option.bind_none]
  | some m =>
    have hplain : ∀ c ∈ m.name.toList, Text.isBlank c = false ∧ c ≠ '(' := by
      cases m <;> exact List.all_iff_forall_prop.mp (by decide)
    have hmark (t : Text) : Text.trimStart (m.name.toList ++ t) = m.name.toList ++ t := by
      cases m <;> rfl
    simp only [List.append_assoc, List.cons_append, hmark]
    by_cases hword : m.name.toList.map Code.foldLetter ∈ FunctionDecl.modifiers.words
    · simp only [Modifier.readAll_word (by decide) hplain hword, hstart, hclass, hother,
        Option.bind_none]
    · have hword' (t : Text) : Code.keyword? "function".toList (m.name.toList ++ t) = none := by
        cases m with
        | final => exact absurd (by decide) hword
        | abstract => rfl
        | readonly => rfl
      simp only [Modifier.readAll_other_word (by decide) hplain hword, hword', Option.bind_none]

end NothingElse

/-- No doc comment ends on the line of a header. -/
theorem above?_text (lines : List Text) :
    DocBlock.above? (h.text :: lines) 2 = none := by
  have htrim := h.trimmed_text.trim_eq
  have hskipped : DocBlock.isSkipped h.text = false := by
    rw [DocBlock.isSkipped, htrim, text, lead]
    rcases h.mark with _ | _ | _ | _ <;> rfl
  have hslash : '/' ∉ h.text := by
    obtain ⟨front, htext, hfront⟩ := h.text_eq
    rw [htext, List.mem_append, not_or]
    refine ⟨fun hmem => ?_, by simp⟩
    have hother := hfront '/' hmem
    revert hother
    decide
  have hends : DocBlock.endsBlock h.text = false := by
    rw [DocBlock.endsBlock, htrim, Text.stripEnd?_of_not_mem (c := '/') (by simp) hslash]
    rfl
  have habove : ((h.text :: lines).take (2 - 1)).reverse = [h.text] := rfl
  rw [DocBlock.above?, habove]
  simp [hskipped, DocBlock.blockLines?, hends]

/-- Nothing is joined to the line: it has the brace. -/
theorem pending?_line (number : Nat) (rest : Text) (next : Option Text) :
    LogicalLine.pending? (h.line number rest) next = none := by
  rw [LogicalLine.pending?, h.line_text, h.stripAttributes_text, h.readHead?_function,
    h.readHead?_text, h.contains_line_code]
  simp

/-- The class is read from the header and from what is left of the rest of the line. -/
theorem read?_line {h : ClassHeader} (hfree : h.Unreserved) (number : Nat) (space : Option Text)
    (rest : Text) :
    ClassDecl.read? number space (Code.stripAttributes (h.line number rest).text) =
      some (h.decl number space (Scrubber.scan true .code rest).1) := by
  rw [h.line_text, h.stripAttributes_text, read?_text hfree]

theorem ofLinesFrom_line (number : Nat) (rest : Text) (lines : List Text) :
    LogicalLine.ofLinesFrom number {} { keepLiterals := true } none ((h.text ++ rest) :: lines) =
      h.line number rest ::
        LogicalLine.ofLinesFrom (number + 1) { mode := (Scrubber.scan false .code rest).2 }
          { keepLiterals := true, mode := (Scrubber.scan true .code rest).2 } none lines := by
  have hplain : (h.line number rest).continues = false := rfl
  have hsingle : LogicalLine.single number {} { keepLiterals := true } (h.text ++ rest) =
      h.line number rest := rfl
  rw [LogicalLine.ofLinesFrom_single, hsingle, hplain, if_neg (by simp), h.pending?_line,
    h.scrub_text true, h.scrub_text false]

end ClassHeader

namespace SourceModel

/-- The class that the line of a header opens. -/
def OpenClass.ofHeader (lines : List Text) (h : ClassHeader) (number : Nat) (space : Option Text)
    (depth : Int) (behind : Text) : OpenClass where
  decl := { h.decl number space behind with doc := DocBlock.above? lines number }
  depth
  bodySeen := true

namespace Reading

/-- A class stays open while the braces lead into it. -/
theorem closeClass_of_lt {r : Reading} {c : OpenClass} (hopen : r.openClass = some c)
    (hseen : c.bodySeen = true) (hdepth : c.depth < r.depth) (line : LogicalLine) :
    r.closeClass line = r := by
  obtain ⟨decl, depth, bodySeen⟩ := c
  obtain rfl : bodySeen = true := hseen
  rw [closeClass, hopen]
  simp only [if_pos hdepth, ← hopen]

/-- Where they lead back, the class is closed. -/
theorem closeClass_of_le {r : Reading} {c : OpenClass} (hopen : r.openClass = some c)
    (hseen : c.bodySeen = true) (hdepth : r.depth ≤ c.depth) (line : LogicalLine) :
    r.closeClass line =
      { r with
        openClass := none
        model := { r.model with classes := r.model.classes ++ [c.decl.close line.last] } } := by
  rw [closeClass, hopen]
  simp only [if_neg (Int.not_lt.mpr hdepth), if_pos hseen]

/-- Outside of classes, the line of a header opens the class; the braces behind the header
decide whether it also closes it. -/
theorem step_header (lines : List Text) {r : Reading} (houtside : r.openClass = none)
    {h : ClassHeader} (hfree : h.Unreserved) (number : Nat) (rest : Text) :
    step lines r (h.line number rest) = .ok (closeClass
      { depth := r.depth + (h.line number rest).braceDelta
        openClass := some (.ofHeader lines h number r.model.namespaceName r.depth
          (Scrubber.scan true .code rest).1)
        model :=
          { r.model with
            strictTypes := r.model.strictTypes ||
              declaresStrictTypes (h.line number rest).text } }
      (h.line number rest)) := by
  have hspace : readNamespace? (h.line number rest).text = none := by
    rw [h.line_text, h.readNamespace?_text]
  have himports : r.newImports (h.line number rest) = .ok [] := by
    simp [newImports, houtside, h.line_text, h.readStatement?_text]
  have hnext : r.nextClass lines (h.line number rest) r.depth =
      some (.ofHeader lines h number r.model.namespaceName r.depth
        (Scrubber.scan true .code rest).1) := by
    have hfirst : (h.line number rest).first = number := rfl
    rw [nextClass, houtside, readNamespace, hspace]
    simp only [hfirst, ClassHeader.read?_line hfree, h.contains_line_code, Option.map_some]
    rfl
  have hproperties : r.newProperties lines (h.line number rest) r.depth = [] := by
    simp [newProperties, houtside]
  have hfunction : r.newFunction? lines (h.line number rest) r.depth = none := by
    rw [newFunction?, FunctionDecl.read?, h.line_text, h.stripAttributes_text,
      h.readHead?_function]
    rfl
  rw [step_plain lines rfl hspace himports, hnext, hproperties, hfunction, Option.toList_none,
    List.append_nil, List.append_nil, List.append_nil]

/-- A line directly in the body of a class adds its properties, if it names no traits and
declares no function. -/
theorem step_body (lines : List Text) {r : Reading} {c : OpenClass} (hopen : r.openClass = some c)
    (hbody : r.depth = c.depth + 1) {line : LogicalLine} (hplain : line.continues = false)
    (hspace : readNamespace? line.text = none) (htraits : ClassDecl.readTraits line.text = [])
    (hfunction : FunctionDecl.readHead? (Code.stripAttributes line.text) = none) :
    step lines r line = .ok (closeClass
      { r with
        depth := r.depth + line.braceDelta
        model :=
          { r.model with
            strictTypes := r.model.strictTypes || declaresStrictTypes line.text
            properties := r.model.properties ++
              (Property.read line.first c.decl.name c.decl.readonly
                (Code.stripAttributes line.text)).map fun p =>
                  { p with doc := DocBlock.above? lines line.first } } } line) := by
  have himports : r.newImports line = .ok [] := by rw [newImports, hopen]
  have hnext : r.nextClass lines line r.depth = r.openClass := by
    rw [nextClass, hopen, htraits]
    rfl
  have hnone : r.newFunction? lines line r.depth = none := by
    rw [newFunction?, FunctionDecl.read?, hfunction]
    rfl
  have hproperties : r.newProperties lines line r.depth =
      (Property.read line.first c.decl.name c.decl.readonly
        (Code.stripAttributes line.text)).map fun p =>
          { p with doc := DocBlock.above? lines line.first } := by
    rw [newProperties, hopen]
    exact if_pos hbody
  rw [step_plain lines hplain hspace himports, hnext, hproperties, hnone, Option.toList_none,
    List.append_nil, List.append_nil]

end Reading

end SourceModel

end PhpLint
