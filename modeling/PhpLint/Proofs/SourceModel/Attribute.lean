import PhpLint.Proofs.LogicalLine.Attribute
import PhpLint.Proofs.SourceModel.LineComment

/-!
The model of a file and of the same file with an attribute in front of a declaration, on its
line. The declaration is read behind the attribute, and no other reader finds anything on
either line: neither a namespace nor an import nor traits start where a declaration or an
attribute does. What is left is the declaration of strict types, which is looked for in
the whole text of a line and so in the quotes of the attribute, too. Main statement: but for
that and for doc comments, the two models are the same.
-/

namespace PhpLint.SourceModel

open Code (foldLetter)
open LogicalLine (Attributed StartsDeclaration)

section Silent

/-- A text whose first character that is not blank can start neither a namespace nor a
`use` statement. -/
def Silent (s : Text) : Prop := ∃ c t, Text.trimStart s = c :: t ∧ foldLetter c ∉ ['n', 'u']

variable {s : Text}

theorem silent_of_startsDeclaration (h : StartsDeclaration s) : Silent s := by
  obtain ⟨c, t, ht, hstart⟩ := h.exists_trimStart
  have hclass : LogicalLine.declarationStarts.contains (foldLetter c) = true := by
    simpa using hstart
  exact ⟨c, t, ht, Text.not_mem_of_class hclass (by decide)⟩

theorem silent_of_hash (rest : Text) : Silent ('#' :: rest) :=
  ⟨'#', rest, Text.trimStart_cons_of_not_blank (by decide) _, by decide⟩

theorem Silent.keyword? {k : Char} (h : Silent s) (hk : k ∈ ['n', 'u']) (word : Text) :
    Code.keyword? (k :: word) (Text.trimStart s) = none := by
  obtain ⟨c, t, ht, hc⟩ := h
  rw [ht, Code.keyword?, if_neg]
  rintro rfl
  exact hc hk

theorem Silent.readNamespace? (h : Silent s) : readNamespace? s = none := by
  have hnone : Code.keyword? "namespace".toList (Text.trimStart s) = none :=
    h.keyword? (by decide) _
  rw [SourceModel.readNamespace?, hnone]
  rfl

theorem Silent.keyword_use (h : Silent s) :
    Code.keyword? "use".toList (Text.trimStart s) = none :=
  h.keyword? (by decide) _

theorem Silent.readStatement? (h : Silent s) : Import.readStatement? s = none := by
  rw [Import.readStatement?, h.keyword_use]
  rfl

theorem Silent.readTraits (h : Silent s) : ClassDecl.readTraits s = [] := by
  rw [ClassDecl.readTraits, h.keyword_use]
  rfl

end Silent

namespace Reading

/-- A reading without a word on strict types. -/
def forget (r : Reading) : Reading := { r with model := { r.model with strictTypes := false } }

variable {line line' : LogicalLine}

theorem closeClass_forget (r : Reading) (line : LogicalLine) :
    r.forget.closeClass line = (r.closeClass line).forget := by
  cases hopen : r.openClass with
  | none => simp [closeClass, forget, hopen]
  | some c =>
    by_cases hdeep : c.depth < r.depth
    · simp [closeClass, forget, hopen, hdeep]
    · cases hseen : c.bodySeen <;> simp [closeClass, forget, hopen, hdeep, hseen]

/-- What reading the declarations of a line does, strict types apart. -/
theorem forget_readDeclarations (lines : List Text) (r : Reading) (line : LogicalLine)
    (depth : Int) :
    forget <$> r.readDeclarations lines line depth =
      (fun imports =>
        { r with
          openClass := r.nextClass lines line depth
          model :=
            { r.model with
              namespaceName := (r.readNamespace line).model.namespaceName
              strictTypes := false
              imports := r.model.imports ++ imports
              properties := r.model.properties ++ r.newProperties lines line depth
              functions := r.model.functions ++ (r.newFunction? lines line depth).toList } }) <$>
        r.newImports line := by
  obtain ⟨space, strict, hheader, hspace⟩ := header_eq r line
  rw [readDeclarations_eq, hheader, hspace]
  cases r.newImports line <;> rfl

/-- Strict types are noted and never asked about. -/
theorem readDeclarations_forget (lines : List Text) (r : Reading) (line : LogicalLine)
    (depth : Int) :
    forget <$> r.forget.readDeclarations lines line depth =
      forget <$> r.readDeclarations lines line depth := by
  have hspace : (r.forget.readNamespace line).model.namespaceName =
      (r.readNamespace line).model.namespaceName := by
    unfold readNamespace
    cases readNamespace? line.text <;> rfl
  have hclass : r.forget.nextClass lines line depth = r.nextClass lines line depth := by
    unfold nextClass
    rw [hspace]
    rfl
  rw [forget_readDeclarations, forget_readDeclarations, hspace, hclass]
  rfl

/-- Of a line with an attribute in front of it the same is read. -/
theorem readDeclarations_attributed (h : Attributed line line') (lines : List Text) (r : Reading)
    (depth : Int) :
    forget <$> r.readDeclarations lines line' depth =
      forget <$> r.readDeclarations lines line depth := by
  have hsilent : readNamespace? line'.text = readNamespace? line.text ∧
      ClassDecl.readTraits line'.text = ClassDecl.readTraits line.text ∧
      Import.readStatement? line'.text = Import.readStatement? line.text := by
    rcases h.text_eq with hsame | ⟨hstarts, rest, hrest⟩
    · rw [hsame]
      exact ⟨rfl, rfl, rfl⟩
    · have hline := silent_of_startsDeclaration hstarts
      have hline' : Silent line'.text := hrest ▸ silent_of_hash rest
      rw [hline.readNamespace?, hline.readTraits, hline.readStatement?, hline'.readNamespace?,
        hline'.readTraits, hline'.readStatement?]
      exact ⟨rfl, rfl, rfl⟩
  obtain ⟨hnamespace, htraits, hstatement⟩ := hsilent
  have hspace : (r.readNamespace line').model.namespaceName =
      (r.readNamespace line).model.namespaceName := by
    unfold readNamespace
    rw [hnamespace]
  have himports : r.newImports line' = r.newImports line := by
    unfold newImports
    rw [hstatement, h.first_eq]
  have hclass : r.nextClass lines line' depth = r.nextClass lines line depth := by
    unfold nextClass
    rw [htraits, hspace, h.decl_eq, h.first_eq, h.brace_eq]
  have hproperties : r.newProperties lines line' depth = r.newProperties lines line depth := by
    unfold newProperties
    rw [h.decl_eq, h.first_eq]
  have hfunction : r.newFunction? lines line' depth = r.newFunction? lines line depth := by
    unfold newFunction?
    rw [h.decl_eq, h.first_eq]
  rw [forget_readDeclarations, forget_readDeclarations, hspace, himports, hclass, hproperties,
    hfunction]

theorem closeClass_attributed (h : Attributed line line') (r : Reading) :
    r.closeClass line' = r.closeClass line := by
  simp only [closeClass, h.last_eq]

theorem forget_step (lines : List Text) (r : Reading) (line : LogicalLine) :
    forget <$> step lines r line = (·.closeClass line) <$> (forget <$>
      if line.continues then .ok { r with depth := r.depth + line.braceDelta }
      else readDeclarations lines { r with depth := r.depth + line.braceDelta } line r.depth) := by
  have hclose (x : Except Error Reading) :
      forget <$> (x >>= fun r => pure (r.closeClass line)) =
        (·.closeClass line) <$> (forget <$> x) := by
    cases x with
    | error e => rfl
    | ok next => exact congrArg Except.ok (closeClass_forget next line).symm
  unfold step
  cases line.continues with
  | true => exact hclose (.ok _)
  | false => exact hclose _

/-- A step starts from a reading with or without a word on strict types. -/
theorem step_forget (lines : List Text) (r : Reading) (line : LogicalLine) :
    forget <$> step lines r.forget line = forget <$> step lines r line := by
  rw [forget_step, forget_step]
  cases line.continues with
  | true => rfl
  | false =>
    exact congrArg _ (readDeclarations_forget lines { r with depth := r.depth + line.braceDelta }
      line r.depth)

theorem step_attributed (h : Attributed line line') (lines : List Text) (r : Reading) :
    forget <$> step lines r line' = forget <$> step lines r line := by
  rw [forget_step, forget_step, h.continues_eq, h.delta_eq]
  simp only [closeClass_attributed h]
  cases line.continues with
  | true => rfl
  | false => exact congrArg _ (readDeclarations_attributed h lines _ r.depth)

/-- A reading without doc comments and without a word on strict types. -/
def outline (r : Reading) : Reading := (r.erase id).forget

theorem outline_eq (x : Except Error Reading) : outline <$> x = erase id <$> (forget <$> x) := by
  cases x <;> rfl

theorem outline_step (lines : List Text) (r : Reading) (line : LogicalLine) :
    outline <$> step [] r.outline line = outline <$> step lines r line := by
  have hforget (x : Except Error Reading) : erase id <$> (forget <$> x) =
      forget <$> (erase id <$> x) := by
    cases x <;> rfl
  have hid : ∀ type : Option Text, id (id type) = id type := fun _ => rfl
  rw [outline_eq, outline_eq, outline, step_forget, hforget, hforget, step_erase hid]

/-- Two runs over logical lines that differ in an attribute agree in outline. -/
theorem run_attributed (lines lines' : List Text) {run run' : List LogicalLine}
    (hrun : List.Forall₂ Attributed run run') {r r' : Reading} (hr : r'.outline = r.outline) :
    outline <$> run'.foldlM (step lines') r' = outline <$> run.foldlM (step lines) r := by
  refine foldlM_alike (fun {line line' r r'} hline hr => ?_) hrun hr
  rw [← outline_step lines', ← outline_step lines, hr, outline_eq, outline_eq,
    step_attributed hline]

end Reading

/-- A model without doc comments and without a word on strict types. -/
def outline (m : SourceModel) : SourceModel := { m.erase id with strictTypes := false }

theorem finish_outline (r : Reading) : r.outline.finish = r.finish.outline := by
  rw [outline, ← Reading.finish_erase]
  rfl

/-- An attribute in front of a declaration, on its line, changes nothing of the model but doc
comments and the word on strict types, if the line starts a logical line in plain code. -/
theorem model_ignores_attribute {before after : List Text} {line : Text} {a : Code.Attribute}
    (ha : a.IsInline)
    (hfirst : ∃ l ∈ LogicalLine.ofLines (before ++ line :: after),
      l.first = before.length + 1 ∧ l.continues = false)
    (hdeclares : LogicalLine.Declares line ∨
      LogicalLine.Declares (({ keepLiterals := true } : Scrubber).scrub line).1)
    {m : SourceModel} (hm : ofLines (before ++ line :: after) = .ok m) :
    ∃ m', ofLines (before ++ (a.text ++ ' ' :: line) :: after) = .ok m' ∧
      m'.outline = m.outline := by
  obtain ⟨code, hfronts⟩ := Code.Attribute.exists_fronts ha
  have hstarts : StartsDeclaration (Scrubber.scan true .code line).1 := by
    rcases hdeclares with h | h
    · exact (LogicalLine.startsDeclaration_of_declares h).scan true
    · exact LogicalLine.startsDeclaration_of_declares h
  have hlines := LogicalLine.ofLines_attributed hfronts hstarts hfirst
  have hempty : Reading.outline {} = Reading.outline {} := rfl
  have hrun := Reading.run_attributed (before ++ line :: after)
    (before ++ (a.text ++ ' ' :: line) :: after) hlines hempty
  obtain ⟨r, hr, rfl⟩ := ofLines_eq_ok_iff.mp hm
  rw [hr] at hrun
  obtain ⟨r', hr', hsame⟩ := map_eq_ok_iff.mp hrun
  refine ⟨r'.finish, ofLines_eq_ok_iff.mpr ⟨r', hr', rfl⟩, ?_⟩
  rw [← finish_outline, ← finish_outline, hsame]

/-- The lines in front of a method. -/
def classLines : List Text := ["class A", "\x7b"].map String.toList

/-- The first line of a method whose signature takes three lines. -/
def methodLine : Text := "  public function f(".toList

def signatureLines : List Text := ["    int $a", "): int \x7b", "\x7d", "\x7d"].map String.toList

def route : Code.Attribute where
  name := "App\\Route".toList
  arguments := some "'/(a', methods: [\"GET\", \"\\\"]\"]".toList

theorem model_ignores_attribute_joined :
    ∃ m, ofLines (classLines ++ methodLine :: signatureLines) = .ok m ∧
      ∃ m', ofLines (classLines ++ (route.text ++ ' ' :: methodLine) :: signatureLines) = .ok m' ∧
        m'.outline = m.outline := by
  have htypes : resultTypes <$> ofLines (classLines ++ methodLine :: signatureLines) =
      .ok [some "int".toList] := by decide +kernel
  obtain ⟨m, hm, -⟩ := map_eq_ok_iff.mp htypes
  exact ⟨m, hm, model_ignores_attribute (a := route) (by decide +kernel) (by decide +kernel)
    (.inl (.inr (.inl (by decide +kernel)))) hm⟩

end PhpLint.SourceModel
