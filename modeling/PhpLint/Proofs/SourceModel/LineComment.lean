import PhpLint.Proofs.LogicalLine.LineComment
import PhpLint.Proofs.SourceModel.Steps

/-!
The model of a file and of the same file with a line comment behind one of its lines.
Doc comments are erased first, since a comment may well stand between one and its
declaration. What is left is the same, with two exceptions that the statement names: a
comment on a blank line can hide a result type that starts the line below, and a
comment behind the colon of a result type makes a result type without any text.
-/

namespace PhpLint

namespace SourceModel

section Blank

/-- What is read of a namespace behind its name. -/
def readNamespaceEnd? (name s : Text) : Option Text :=
  match Text.trimStart s with
  | ';' :: _ | '{' :: _ => some (Text.dropEndWhile (· == '\\') name)
  | _ => none

/-- What is read of a namespace from its name on. -/
def readNamespaceName? (s : Text) : Option Text :=
  (Code.readRun? Code.isNameStart (fun c => Code.isNamePart c || c == '\\') s).bind
    fun x => readNamespaceEnd? x.1 x.2

theorem readNamespaceEnd?_blank (name s : Text) :
    readNamespaceEnd? name (s ++ [' ']) = readNamespaceEnd? name s := by
  unfold readNamespaceEnd?
  rw [Text.trimStart_blank]
  cases Text.trimStart s with
  | nil => rfl
  | cons c t =>
    by_cases hsemicolon : c = ';'
    · subst hsemicolon
      rfl
    · by_cases hbrace : c = '{'
      · subst hbrace
        rfl
      · simp [Text.pad, hsemicolon, hbrace]

theorem readNamespace?_blank (line : Text) :
    readNamespace? (line ++ [' ']) = readNamespace? line := by
  have hname : Code.LeavesBlank readNamespaceName? id :=
    .andThen (k := readNamespaceEnd?) (.run (by decide) (by decide)) fun name s => by
      rw [readNamespaceEnd?_blank, Option.map_id, id]
  have h : Code.LeavesBlank readNamespace? id :=
    (Code.LeavesBlank.andThen
      (k := fun _ s => (Code.blanks? s).bind fun s =>
        readNamespaceName? ((Text.strip? ['\\'] s).getD s))
      (.keyword (by decide) (by decide)) fun _ =>
        (hname.maybeStripped (by decide) (by decide)).blanks.blank).trimStart
  rw [h.blank, Option.map_id, id]

/-- What is read of the declaration of strict types from the equals sign on. -/
def readStrictValue? (s : Text) : Option Text :=
  (Text.strip? ['='] (Text.trimStart s)).bind fun s =>
    (Text.strip? ['1'] (Text.trimStart s)).bind fun s => Text.strip? [')'] (Text.trimStart s)

/-- What is read of the declaration of strict types from the parenthesis on. -/
def readStrictName? (s : Text) : Option Text :=
  (Text.strip? ['('] (Text.trimStart s)).bind fun s =>
    (Code.keyword? "strict_types".toList (Text.trimStart s)).bind fun x => readStrictValue? x.2

theorem leavesBlank_readStrictTypes? : Code.LeavesBlank readStrictTypes? (· ++ [' ']) := by
  have hclose : Code.LeavesBlank (Text.strip? [')']) (· ++ [' ']) := .strip (by decide) (by decide)
  have hone : Code.LeavesBlank (fun s => (Text.strip? ['1'] (Text.trimStart s)).bind fun s =>
      Text.strip? [')'] (Text.trimStart s)) (· ++ [' ']) :=
    (hclose.trimStart.stripped (by decide) (by decide)).trimStart
  have hvalue : Code.LeavesBlank readStrictValue? (· ++ [' ']) :=
    (hone.stripped (by decide) (by decide)).trimStart
  have hkeyword := (Code.LeavesBlank.andThen (k := fun _ => readStrictValue?)
    (.keyword (show ' ' ∉ "strict_types".toList by decide) (by decide))
    fun _ => hvalue.blank).trimStart
  have hname : Code.LeavesBlank readStrictName? (· ++ [' ']) :=
    (hkeyword.stripped (by decide) (by decide)).trimStart
  exact .andThen (k := fun _ => readStrictName?)
    (.keyword (show ' ' ∉ "declare".toList by decide) (by decide)) fun _ => hname.blank

theorem declaresStrictTypes_blank (s : Text) :
    declaresStrictTypes (s ++ [' ']) = declaresStrictTypes s := by
  have hblank := leavesBlank_readStrictTypes?.blank
  induction s with
  | nil =>
    have hnone := hblank []
    rw [leavesBlank_readStrictTypes?.nil] at hnone
    rw [List.nil_append] at hnone ⊢
    simp [declaresStrictTypes, hnone]
  | cons c s ih =>
    have hhere := hblank (c :: s)
    rw [List.cons_append] at hhere ⊢
    rw [declaresStrictTypes, declaresStrictTypes, hhere, ih, Option.isSome_map]

end Blank

end SourceModel

/-- A function without its doc comment, and with its result type seen through `f`. -/
def FunctionDecl.erase (f : Option Text → Option Text) (d : FunctionDecl) : FunctionDecl :=
  { d with doc := none, returnType := f d.returnType }

def ClassDecl.erase (c : ClassDecl) : ClassDecl := { c with doc := none }

def Property.erase (p : Property) : Property := { p with doc := none }

namespace SourceModel

/-- A model without its doc comments, and with its result types seen through `f`. -/
def erase (f : Option Text → Option Text) (m : SourceModel) : SourceModel :=
  { m with
    classes := m.classes.map ClassDecl.erase
    properties := m.properties.map Property.erase
    functions := m.functions.map (FunctionDecl.erase f) }

def OpenClass.erase (c : OpenClass) : OpenClass := { c with decl := c.decl.erase }

namespace Reading

variable {f : Option Text → Option Text}

def erase (f : Option Text → Option Text) (r : Reading) : Reading :=
  { r with openClass := r.openClass.map OpenClass.erase, model := r.model.erase f }

theorem above?_nil (line : Nat) : DocBlock.above? [] line = none := by
  simp [DocBlock.above?, DocBlock.blockLines?]

theorem finish_erase (r : Reading) : (r.erase f).finish = r.finish.erase f := by
  cases hopen : r.openClass with
  | none => simp [finish, erase, SourceModel.erase, hopen]
  | some c => simp [finish, erase, SourceModel.erase, hopen, OpenClass.erase]

theorem readStrictTypes_erase (r : Reading) (line : LogicalLine) :
    (r.erase f).readStrictTypes line = (r.readStrictTypes line).erase f := by
  unfold readStrictTypes
  split <;> rfl

theorem readNamespace_erase (r : Reading) (line : LogicalLine) :
    (r.erase f).readNamespace line = (r.readNamespace line).erase f := by
  unfold readNamespace
  cases readNamespace? line.text <;> rfl

theorem readUse_erase (r : Reading) (line : LogicalLine) :
    (r.erase f).readUse line = erase f <$> r.readUse line := by
  cases hopen : r.openClass with
  | some c =>
    simp [readUse, erase, hopen, ClassDecl.foldl_addTrait, OpenClass.erase, ClassDecl.erase,
      Functor.map, Except.map]
  | none =>
    cases hstatement : Import.readStatement? line.text with
    | none => simp [readUse, erase, hopen, hstatement, Functor.map, Except.map]
    | some statement =>
      cases himports : Import.ofStatement line.first statement with
      | error e =>
        simp [readUse, erase, hopen, hstatement, himports, Functor.map, Except.map, bind,
          Except.bind]
      | ok imports =>
        simp [readUse, erase, SourceModel.erase, hopen, hstatement, himports, Functor.map,
          Except.map, bind, Except.bind, pure, Except.pure]

theorem readClass_erase (lines : List Text) (r : Reading) (line : LogicalLine) (decl : Text)
    (depth : Int) :
    (r.erase f).readClass [] line decl depth = (r.readClass lines line decl depth).erase f := by
  cases hopen : r.openClass with
  | some c => simp [readClass, erase, hopen]
  | none =>
    cases hclass : ClassDecl.read? line.first r.model.namespaceName decl with
    | none => simp [readClass, erase, SourceModel.erase, hopen, hclass]
    | some c =>
      simp [readClass, erase, SourceModel.erase, hopen, hclass, above?_nil, OpenClass.erase,
        ClassDecl.erase]

theorem readProperties_erase (lines : List Text) (r : Reading) (line : LogicalLine) (decl : Text)
    (depth : Int) :
    (r.erase f).readProperties [] line decl depth =
      (r.readProperties lines line decl depth).erase f := by
  cases hopen : r.openClass with
  | none => simp [readProperties, erase, hopen]
  | some c =>
    by_cases hbody : depth = c.depth + 1
    · simp [readProperties, erase, SourceModel.erase, hopen, hbody, above?_nil, OpenClass.erase,
        ClassDecl.erase, Property.erase]
    · simp [readProperties, erase, hopen, hbody, OpenClass.erase]

theorem owner?_erase (r : Reading) (depth : Int) : (r.erase f).owner? depth = r.owner? depth := by
  cases hopen : r.openClass with
  | none => simp [owner?, erase, hopen]
  | some c => simp [owner?, erase, hopen, OpenClass.erase, ClassDecl.erase]

theorem erase_erase (hf : ∀ type, f (f type) = f type) (r : Reading) :
    (r.erase f).erase f = r.erase f := by
  have hfunction : FunctionDecl.erase f ∘ FunctionDecl.erase f = FunctionDecl.erase f := by
    funext d
    simp [FunctionDecl.erase, hf]
  have hclass : ClassDecl.erase ∘ ClassDecl.erase = ClassDecl.erase := rfl
  have hproperty : Property.erase ∘ Property.erase = Property.erase := rfl
  have hopen : OpenClass.erase ∘ OpenClass.erase = OpenClass.erase := rfl
  simp [erase, SourceModel.erase, hfunction, hclass, hproperty, hopen]

/-- Recording a function, erased. -/
theorem erase_addFunctions (r : Reading) (new : List FunctionDecl) :
    ({ r with model := { r.model with functions := r.model.functions ++ new } } : Reading).erase f =
      { r.erase f with
        model := { (r.erase f).model with
          functions := (r.erase f).model.functions ++ new.map (FunctionDecl.erase f) } } := by
  simp [erase, SourceModel.erase]

/-- Functions may be erased before one is recorded as well as behind it. -/
theorem readFunction_erase (hf : ∀ type, f (f type) = f type) (lines : List Text) (r : Reading)
    (line : LogicalLine) (decl : Text) (depth : Int) :
    ((r.erase f).readFunction [] line decl depth).erase f =
      (r.readFunction lines line decl depth).erase f := by
  unfold readFunction
  rw [owner?_erase]
  simp only
  rw [erase_addFunctions, erase_addFunctions, erase_erase hf]
  cases FunctionDecl.read? line.first (r.owner? depth) decl <;> rfl

theorem closeClass_erase (r : Reading) (line : LogicalLine) :
    (r.erase f).closeClass line = (r.closeClass line).erase f := by
  cases hopen : r.openClass with
  | none => simp [closeClass, erase, hopen]
  | some c =>
    by_cases hdeep : c.depth < r.depth
    · simp [closeClass, erase, hopen, hdeep, OpenClass.erase]
    · cases hseen : c.bodySeen with
      | true =>
        simp [closeClass, erase, SourceModel.erase, hopen, hdeep, hseen, OpenClass.erase,
          ClassDecl.erase, ClassDecl.close]
      | false => simp [closeClass, erase, hopen, hdeep, hseen, OpenClass.erase]

theorem readDeclarations_erase (hf : ∀ type, f (f type) = f type) (lines : List Text) (r : Reading)
    (line : LogicalLine) (depth : Int) :
    erase f <$> (r.erase f).readDeclarations [] line depth =
      erase f <$> r.readDeclarations lines line depth := by
  rw [readDeclarations, readDeclarations, readStrictTypes_erase, readNamespace_erase, readUse_erase]
  cases ((r.readStrictTypes line).readNamespace line).readUse line with
  | error e => rfl
  | ok next =>
    have hread := readFunction_erase hf lines
      ((next.readClass lines line (Code.stripAttributes line.text) depth).readProperties lines line
        (Code.stripAttributes line.text) depth) line (Code.stripAttributes line.text) depth
    rw [← readProperties_erase, ← readClass_erase] at hread
    exact congrArg Except.ok hread

theorem erase_bind_closeClass (x : Except Error Reading) (line : LogicalLine) :
    erase f <$> (x >>= fun r => pure (r.closeClass line)) =
      (fun r => r.closeClass line) <$> (erase f <$> x) := by
  cases x with
  | error e => rfl
  | ok next => exact congrArg Except.ok (closeClass_erase next line).symm

/-- What a step does is the same with and without doc comments, once they are erased. -/
theorem step_erase (hf : ∀ type, f (f type) = f type) (lines : List Text) (r : Reading)
    (line : LogicalLine) :
    erase f <$> step [] (r.erase f) line = erase f <$> step lines r line := by
  have hread := readDeclarations_erase hf lines { r with depth := r.depth + line.braceDelta } line
    r.depth
  have hskip := erase_erase hf { r with depth := r.depth + line.braceDelta }
  unfold step
  cases line.continues with
  | true =>
    exact (erase_bind_closeClass (.ok _) line).trans
      ((congrArg _ (congrArg Except.ok hskip)).trans (erase_bind_closeClass (.ok _) line).symm)
  | false =>
    exact (erase_bind_closeClass _ line).trans
      ((congrArg _ hread).trans (erase_bind_closeClass _ line).symm)

section Commented

variable {E : Text → Prop} {line line' : LogicalLine}

theorem header_commented (h : LogicalLine.Commented E line line') (r : Reading) :
    (r.readStrictTypes line').readNamespace line' =
      (r.readStrictTypes line).readNamespace line := by
  simp only [readStrictTypes, readNamespace, h.loosened.apply declaresStrictTypes_blank,
    h.loosened.apply readNamespace?_blank]

theorem readUse_commented (h : LogicalLine.Commented E line line') (r : Reading) :
    r.readUse line' = r.readUse line := by
  simp only [readUse, h.loosened.apply ClassDecl.readTraits_blank,
    h.loosened.apply Import.readStatement?_blank, h.first_eq]

theorem readClass_commented (h : LogicalLine.Commented E line line') (r : Reading) (depth : Int) :
    r.readClass [] line' (Code.stripAttributes line'.text) depth =
      r.readClass [] line (Code.stripAttributes line.text) depth := by
  have hread (space : Option Text) :=
    h.loosened.stripAttributes.apply (ClassDecl.read?_blank line.first space)
  simp only [readClass, h.first_eq, h.brace_eq, hread]

theorem readProperties_commented (h : LogicalLine.Commented E line line') (r : Reading)
    (depth : Int) :
    r.readProperties [] line' (Code.stripAttributes line'.text) depth =
      r.readProperties [] line (Code.stripAttributes line.text) depth := by
  have hread (owner : Text) (classReadonly : Bool) :=
    h.loosened.stripAttributes.apply (Property.read_blank line.first owner classReadonly)
  simp only [readProperties, h.first_eq, hread]

/-- A function is read alike, except for a result type that `f` does not tell from none. -/
theorem read?_commented (h : LogicalLine.Commented E line line')
    (hE : ∀ text, E text → [':'] <:+ text → f (some []) = f none) (owner : Option Text) :
    (FunctionDecl.read? line.first owner (Code.stripAttributes line'.text)).map
        (FunctionDecl.erase f) =
      (FunctionDecl.read? line.first owner (Code.stripAttributes line.text)).map
        (FunctionDecl.erase f) := by
  rcases h.text_eq with hsame | ⟨hblank, htext⟩
  · rw [hsame]
  · rw [hblank, Code.stripAttributes_blank]
    cases hdecl : Code.stripAttributes line.text with
    | nil => rfl
    | cons c t =>
      rw [Text.pad]
      rcases FunctionDecl.read?_blank line.first owner (c :: t) with
        hread | ⟨hcolon, d, hd, hnone, hread⟩
      · rw [hread]
      · have hend := hE line.text htext
          (hcolon.trans (hdecl ▸ Code.stripAttributes_suffix line.text))
        rw [hread, hd]
        simp [FunctionDecl.erase, FunctionDecl.withBlankType, hnone, hend]

theorem readFunction_commented (h : LogicalLine.Commented E line line')
    (hE : ∀ text, E text → [':'] <:+ text → f (some []) = f none) (r : Reading) (depth : Int) :
    (r.readFunction [] line' (Code.stripAttributes line'.text) depth).erase f =
      (r.readFunction [] line (Code.stripAttributes line.text) depth).erase f := by
  have hread := congrArg Option.toList (read?_commented h hE (r.owner? depth))
  simp only [readFunction, above?_nil, h.first_eq]
  rw [erase_addFunctions, erase_addFunctions]
  simp only [← Option.toList_map, Option.map_map] at hread ⊢
  exact congrArg (fun new => { r.erase f with
    model := { (r.erase f).model with functions := (r.erase f).model.functions ++ new } }) hread

theorem closeClass_commented (h : LogicalLine.Commented E line line') (r : Reading) :
    r.closeClass line' = r.closeClass line := by
  simp only [closeClass, h.last_eq]

/-- What a step reads of a line does not depend on a comment behind it, except for a
result type that `f` does not tell from none. -/
theorem step_commented (h : LogicalLine.Commented E line line')
    (hE : ∀ text, E text → [':'] <:+ text → f (some []) = f none) (r : Reading) :
    erase f <$> step [] r line' = erase f <$> step [] r line := by
  have hread (depth : Int) (r : Reading) : erase f <$> r.readDeclarations [] line' depth =
      erase f <$> r.readDeclarations [] line depth := by
    rw [readDeclarations, readDeclarations, header_commented h, readUse_commented h]
    cases ((r.readStrictTypes line).readNamespace line).readUse line with
    | error e => rfl
    | ok next =>
      refine congrArg Except.ok ?_
      rw [readClass_commented h, readProperties_commented h]
      exact readFunction_commented h hE _ depth
  unfold step
  rw [h.continues_eq, h.delta_eq]
  simp only [closeClass_commented h]
  cases line.continues with
  | true => rfl
  | false =>
    exact (erase_bind_closeClass _ line).trans
      ((congrArg _ (hread r.depth _)).trans (erase_bind_closeClass _ line).symm)

end Commented

/-- Two runs over logical lines that differ in comments only agree. -/
theorem run_commented {E : Text → Prop} (hf : ∀ type, f (f type) = f type)
    (hE : ∀ text, E text → [':'] <:+ text → f (some []) = f none) {lines lines' : List Text}
    {run run' : List LogicalLine} (hrun : List.Forall₂ (LogicalLine.Commented E) run run')
    {r r' : Reading} (hr : r'.erase f = r.erase f) :
    erase f <$> run'.foldlM (step lines') r' = erase f <$> run.foldlM (step lines) r := by
  refine foldlM_alike (fun {line line' r r'} hline hr => ?_) hrun hr
  rw [← step_erase hf lines', ← step_erase hf lines, hr, step_commented hline hE]

end Reading

/-- A result type without any text is none. -/
def dropBlank : Option Text → Option Text
  | some [] => none
  | type => type

theorem erase_ofLines (f : Option Text → Option Text) (lines : List Text) :
    erase f <$> ofLines lines =
      Reading.finish <$> (Reading.erase f <$>
        (LogicalLine.ofLines lines).foldlM (Reading.step lines) {}) := by
  rw [ofLines]
  cases (LogicalLine.ofLines lines).foldlM (Reading.step lines) {} with
  | error e => rfl
  | ok r => exact congrArg Except.ok (Reading.finish_erase r).symm

theorem erase_ofLines_withComment {E : Text → Prop} {f : Option Text → Option Text}
    (hf : ∀ type, f (f type) = f type)
    (hE : ∀ text, E text → [':'] <:+ text → f (some []) = f none)
    {before after : List Text} {line : Text} (comment : Text)
    (hplain : (({} : Scrubber).after (before ++ [line])).mode = .code)
    (hnext : Text.trim line = [] →
      LogicalLine.startsReturnType (LogicalLine.nextLine after) = false)
    (htext : E ((({ keepLiterals := true } : Scrubber).after before).scrub line).1) :
    erase f <$> ofLines (before ++ Text.withComment line comment :: after) =
      erase f <$> ofLines (before ++ line :: after) := by
  rw [erase_ofLines, erase_ofLines]
  exact congrArg _ (Reading.run_commented hf hE
    (LogicalLine.ofLines_withComment comment hplain hnext htext) rfl)

/-- A line comment behind a line that ends in plain code changes nothing of the model but
doc comments and result types without any text, and those only behind a colon at the
end of the line, unless the line is blank and a result type starts the line at which the
reader looks ahead. -/
theorem model_ignores_line_comment {before after : List Text} {line : Text} (comment : Text)
    (hplain : (({} : Scrubber).after (before ++ [line])).mode = .code)
    (hnext : Text.trim line = [] →
      LogicalLine.startsReturnType (LogicalLine.nextLine after) = false) :
    erase dropBlank <$> ofLines (before ++ Text.withComment line comment :: after) =
        erase dropBlank <$> ofLines (before ++ line :: after) ∧
      (¬ [':'] <:+ ((({ keepLiterals := true } : Scrubber).after before).scrub line).1 →
        erase id <$> ofLines (before ++ Text.withComment line comment :: after) =
          erase id <$> ofLines (before ++ line :: after)) := by
  constructor
  · refine erase_ofLines_withComment (E := fun _ => True) ?_ (fun _ _ _ => rfl) comment hplain hnext
      trivial
    rintro (_ | _ | _) <;> rfl
  · intro hcolon
    exact erase_ofLines_withComment (E := fun text => ¬ [':'] <:+ text) (fun _ => rfl)
      (fun _ hnot hend => absurd hend hnot) comment hplain hnext hcolon

/-- The second line of a function of two lines has a comment behind it. -/
theorem model_ignores_line_comment_joined :
    erase id <$> ofLines
        (["function f(int $a".toList] ++ Text.withComment ", $b)".toList "both".toList ::
          ["\x7b".toList, "\x7d".toList]) =
      erase id <$> ofLines
        (["function f(int $a".toList] ++ ", $b)".toList :: ["\x7b".toList, "\x7d".toList]) :=
  (model_ignores_line_comment "both".toList (by decide +kernel)
    (fun h => absurd h (by decide))).2 (by decide +kernel)

/-- The result types of the functions in order. -/
def resultTypes (m : SourceModel) : List (Option Text) := m.functions.map FunctionDecl.returnType

/-- A comment on the blank line in front of a result type takes the type away, and a
comment behind a colon makes a result type without any text. -/
theorem line_comment_changes_result_type :
    (resultTypes <$> ofLines (["function g()".toList] ++ [] :: [":int".toList]) =
        .ok [some "int".toList] ∧
      resultTypes <$> ofLines (["function g()".toList] ++ Text.withComment [] [] ::
        [":int".toList]) = .ok [none]) ∧
    resultTypes <$> ofLines ["function f():".toList] = .ok [none] ∧
      resultTypes <$> ofLines [Text.withComment "function f():".toList []] = .ok [some []] := by
  decide +kernel

end SourceModel

end PhpLint
