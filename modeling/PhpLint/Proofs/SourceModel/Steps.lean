import Mathlib.Algebra.Ring.Int.Defs
import Mathlib.Data.List.Forall2
import PhpLint.SourceModel.Parser

/-!
What reading one logical line does, said once. A line appends what it declares to
what is recorded, moves the brace depth by its own count, and opens, carries on
or closes at most one class. `step_effect` says so of every line that is read
without an error; the theorems about whole files follow from it by induction over
the run and do not open the reader again.
-/

namespace PhpLint

theorem bind_eq_ok_iff {ε α β : Type} {x : Except ε α} {f : α → Except ε β} {b : β} :
    (x >>= f) = .ok b ↔ ∃ a, x = .ok a ∧ f a = .ok b := by
  cases x with
  | error e => simp [bind, Except.bind]
  | ok a => simp [bind, Except.bind]

theorem map_eq_ok_iff {ε α β : Type} {x : Except ε α} {f : α → β} {b : β} :
    (f <$> x) = .ok b ↔ ∃ a, x = .ok a ∧ f a = b := by
  cases x with
  | error e => simp [Functor.map, Except.map]
  | ok a => simp [Functor.map, Except.map]

/-- Two runs over lists whose elements match, from states that look alike: if a step keeps
states alike, or fails in both with the same error, so does the run. -/
theorem foldlM_alike {ε σ τ α : Type} {look : σ → τ} {step step' : σ → α → Except ε σ}
    {Matches : α → α → Prop}
    (hstep : ∀ {a a' s s'}, Matches a a' → look s' = look s →
      look <$> step' s' a' = look <$> step s a)
    {as as' : List α} (has : List.Forall₂ Matches as as') {s s' : σ} (hs : look s' = look s) :
    look <$> as'.foldlM step' s' = look <$> as.foldlM step s := by
  induction has generalizing s s' with
  | nil => exact congrArg Except.ok hs
  | @cons a a' as as' ha _ ih =>
    have hnext := hstep ha hs
    rw [List.foldlM_cons, List.foldlM_cons]
    cases h : step s a with
    | error e =>
      rw [h] at hnext
      cases h' : step' s' a' with
      | error e' =>
        rw [h'] at hnext
        exact hnext
      | ok next' =>
        rw [h'] at hnext
        cases hnext
    | ok next =>
      rw [h] at hnext
      obtain ⟨next', h', hlook⟩ := map_eq_ok_iff.mp hnext
      rw [h']
      exact ih hlook

namespace ClassDecl

/-- The lines between which a class stands. -/
def span (c : ClassDecl) : Nat × Option Nat := (c.startLine, c.endLine)

/-- What every step of a fold keeps of a class, the fold keeps. -/
theorem foldl_kept {α β : Type} {g : ClassDecl → β} {f : ClassDecl → α → ClassDecl}
    (hf : ∀ c x, g (f c x) = g c) (xs : List α) (c : ClassDecl) : g (xs.foldl f c) = g c := by
  induction xs generalizing c with
  | nil => rfl
  | cons x xs ih => rw [List.foldl_cons, ih, hf]

/-- What is no part of the head of a declaration: the lines and the traits. -/
def frame (c : ClassDecl) : (Nat × Option Nat) × List Text := (c.span, c.traits)

theorem frame_applyModifier (c : ClassDecl) (m : Modifier) :
    (c.applyModifier m).frame = c.frame := by
  unfold applyModifier
  split
  · rfl
  · split
    · rfl
    · split <;> rfl

theorem frame_addInterface (c : ClassDecl) (name : Text) :
    (c.addInterface name).frame = c.frame := rfl

theorem frame_addParents (c : ClassDecl) (names : List Text) :
    (c.addParents names).frame = c.frame := by
  cases names with
  | nil => rfl
  | cons parent more =>
    rw [addParents, foldl_kept frame_addInterface]
    rfl

/-- A class that has been read stands on its line, without an end and without traits. -/
theorem read?_frame {line : Nat} {space : Option Text} {s : Text} {c : ClassDecl}
    (h : read? line space s = some c) : c.frame = ((line, none), []) := by
  simp only [read?, Option.bind_eq_bind, Option.bind_eq_some_iff, Option.pure_def,
    Option.some.injEq] at h
  obtain ⟨head, -, kind, -, rfl⟩ := h
  rw [foldl_kept frame_addInterface, frame_addParents, foldl_kept frame_applyModifier]
  rfl

theorem read?_span {line : Nat} {space : Option Text} {s : Text} {c : ClassDecl}
    (h : read? line space s = some c) : c.span = (line, none) :=
  congrArg Prod.fst (read?_frame h)

theorem foldl_addTrait (names : List Text) (c : ClassDecl) :
    names.foldl addTrait c = { c with traits := names.foldl addName c.traits } := by
  induction names generalizing c with
  | nil => rfl
  | cons name names ih => rw [List.foldl_cons, ih]; rfl

end ClassDecl

namespace Property

theorem read_line {line : Nat} {owner : Text} {classReadonly : Bool} {s : Text} {p : Property}
    (h : p ∈ read line owner classReadonly s) : p.line = line ∧ p.className = owner := by
  unfold read at h
  split at h
  · simp at h
  · split at h
    · simp at h
    · obtain ⟨item, -, rfl⟩ := List.mem_map.mp h
      exact ⟨rfl, rfl⟩

end Property

namespace Import

theorem ofStatement_line {line : Nat} {statement : Statement} {imports : List Import}
    (h : ofStatement line statement = .ok imports) {i : Import} (hi : i ∈ imports) :
    i.line = line := by
  simp only [ofStatement, bind_eq_ok_iff, pure, Except.pure, Except.ok.injEq] at h
  obtain ⟨⟨group, items⟩, -, rfl⟩ := h
  obtain ⟨item, -, rfl⟩ := List.mem_map.mp hi
  rfl

end Import

namespace Keyed

theorem eq_or_mem_of_mem_insert {κ α : Type} [DecidableEq κ] {key : κ} {value : α}
    {m : Keyed κ α} {entry : κ × α} (h : entry ∈ insert key value m) :
    entry = (key, value) ∨ entry ∈ m := by
  induction m with
  | nil => simpa [insert] using h
  | cons head rest ih =>
    obtain ⟨k, v⟩ := head
    rw [insert] at h
    split at h
    · rename_i hk
      subst hk
      rcases List.mem_cons.mp h with rfl | hrest
      · exact Or.inl rfl
      · exact Or.inr (List.mem_cons_of_mem _ hrest)
    · rcases List.mem_cons.mp h with rfl | hrest
      · exact Or.inr List.mem_cons_self
      · exact (ih hrest).imp_right (List.mem_cons_of_mem _)

theorem nodup_keys_insert {κ α : Type} [DecidableEq κ] (key : κ) (value : α) {m : Keyed κ α}
    (h : m.keys.Nodup) : (insert key value m).keys.Nodup := by
  rw [keys_insert]
  split
  · exact h
  · rename_i hnew
    rw [List.nodup_append]
    refine ⟨h, by simp, ?_⟩
    intro k hk k' hk' heq
    simp only [List.mem_singleton] at hk'
    exact hnew (hk' ▸ heq ▸ hk)

end Keyed

namespace FunctionDecl

/-- Parameters stand under their own names, and no name stands twice. -/
def ParametersKeyed (ps : Keyed Text Parameter) : Prop :=
  (∀ entry ∈ ps, entry.1 = entry.2.name) ∧ ps.keys.Nodup

theorem parametersKeyed_add {ps : Keyed Text Parameter} (h : ParametersKeyed ps) (p : Parameter) :
    ParametersKeyed (addParameter ps p) := by
  refine ⟨?_, Keyed.nodup_keys_insert p.name p h.2⟩
  intro entry hentry
  rcases Keyed.eq_or_mem_of_mem_insert hentry with rfl | hold
  · rfl
  · exact h.1 entry hold

theorem parametersKeyed_foldl (new : List Parameter) {ps : Keyed Text Parameter}
    (h : ParametersKeyed ps) : ParametersKeyed (new.foldl addParameter ps) := by
  induction new generalizing ps with
  | nil => exact h
  | cons p new ih => exact ih (parametersKeyed_add h p)

/-- A function that has been read stands on its line, belongs to its owner, and has
its parameters under their names. -/
theorem read?_facts {line : Nat} {owner : Option Text} {s : Text} {f : FunctionDecl}
    (h : read? line owner s = some f) :
    f.line = line ∧ f.className = owner ∧ ParametersKeyed f.parameters := by
  simp only [read?, Option.bind_eq_bind, Option.bind_eq_some_iff, Option.pure_def,
    Option.some.injEq] at h
  obtain ⟨head, -, ⟨inside, rest⟩, -, rfl⟩ := h
  exact ⟨rfl, rfl, parametersKeyed_foldl _ ⟨by simp, by simp [Keyed.keys]⟩⟩

end FunctionDecl

namespace SourceModel

/-- The class that is open after some lines is the one that was open before them:
only its traits and the mark that its body has begun may have changed. -/
structure OpenClass.Continues (before after : OpenClass) : Prop where
  name_eq : after.decl.name = before.decl.name
  span_eq : after.decl.span = before.decl.span
  depth_eq : after.depth = before.depth

/-- What one logical line, at whose end the brace depth is `depth`, does to the
open class; the list holds the class that it closes. -/
inductive ClassMove (line : LogicalLine) (depth : Int) :
    Option OpenClass → Option OpenClass → List ClassDecl → Prop where
  | idle : ClassMove line depth none none []
  | opens (c : OpenClass) (hspan : c.decl.span = (line.first, none)) :
      ClassMove line depth none (some c) []
  | opensAndCloses (c : OpenClass) (hspan : c.decl.span = (line.first, none)) :
      ClassMove line depth none none [c.decl.close line.last]
  | stays (c c' : OpenClass) (hsame : c.Continues c') :
      ClassMove line depth (some c) (some c') []
  | closes (c c' : OpenClass) (hsame : c.Continues c') (hdepth : depth ≤ c.depth) :
      ClassMove line depth (some c) none [c'.decl.close line.last]

namespace Reading

/-- The imports that a line names; inside a class it names none. -/
def newImports (r : Reading) (line : LogicalLine) : Except Error (List Import) :=
  match r.openClass with
  | some _ => .ok []
  | none =>
    match Import.readStatement? line.text with
    | some statement => Import.ofStatement line.first statement
    | none => .ok []

/-- The class that is open once a line's own class and traits have been read. -/
def nextClass (lines : List Text) (r : Reading) (line : LogicalLine) (depth : Int) :
    Option OpenClass :=
  match r.openClass with
  | some c =>
    some { c with decl := (ClassDecl.readTraits line.text).foldl ClassDecl.addTrait c.decl }
  | none =>
    (ClassDecl.read? line.first (r.readNamespace line).model.namespaceName
      (Code.stripAttributes line.text)).map fun decl =>
        { decl := { decl with doc := DocBlock.above? lines line.first }
          depth
          bodySeen := line.code.contains '{' }

def newProperties (lines : List Text) (r : Reading) (line : LogicalLine) (depth : Int) :
    List Property :=
  match r.openClass with
  | some c =>
    if depth = c.depth + 1 then
      (Property.read line.first c.decl.name c.decl.readonly
        (Code.stripAttributes line.text)).map fun p =>
          { p with doc := DocBlock.above? lines line.first }
    else []
  | none => []

def newFunction? (lines : List Text) (r : Reading) (line : LogicalLine) (depth : Int) :
    Option FunctionDecl :=
  (FunctionDecl.read? line.first (r.owner? depth) (Code.stripAttributes line.text)).map fun f =>
    { f with doc := DocBlock.above? lines line.first }

/-- Strict types and the namespace are all that the head of a file can change. -/
theorem header_eq (r : Reading) (line : LogicalLine) :
    ∃ space strict,
      (r.readStrictTypes line).readNamespace line =
        { r with model := { r.model with namespaceName := space, strictTypes := strict } } ∧
      (r.readNamespace line).model.namespaceName = space := by
  unfold readStrictTypes readNamespace
  split <;> split <;> exact ⟨_, _, rfl, rfl⟩

/-- Reading the declarations of a line fails only where its imports do. -/
theorem readDeclarations_eq (lines : List Text) (r : Reading) (line : LogicalLine) (depth : Int) :
    r.readDeclarations lines line depth =
      (fun imports =>
        { r with
          openClass := r.nextClass lines line depth
          model :=
            { ((r.readStrictTypes line).readNamespace line).model with
              imports := r.model.imports ++ imports
              properties := r.model.properties ++ r.newProperties lines line depth
              functions := r.model.functions ++ (r.newFunction? lines line depth).toList } }) <$>
        r.newImports line := by
  obtain ⟨space, strict, hheader, hspace⟩ := header_eq r line
  -- A class that the line opens owns nothing on that line, which starts outside of it.
  have hself : ¬ depth = depth + 1 := by omega
  rw [readDeclarations, hheader]
  simp only [newImports, nextClass, newProperties, newFunction?, hspace, owner?]
  cases hopen : r.openClass with
  | some c =>
    by_cases hbody : depth = c.depth + 1
    all_goals
      simp [readUse, ClassDecl.foldl_addTrait, readClass, readProperties, readFunction, owner?,
        hbody, bind, Except.bind, Functor.map, Except.map, pure, Except.pure]
  | none =>
    cases hstatement : Import.readStatement? line.text with
    | none =>
      cases hclass : ClassDecl.read? line.first space (Code.stripAttributes line.text)
      all_goals
        simp [readUse, hstatement, readClass, readProperties, readFunction, owner?, hclass, hself,
          bind, Except.bind, Functor.map, Except.map, pure, Except.pure]
    | some statement =>
      cases himports : Import.ofStatement line.first statement with
      | error e =>
        simp [readUse, hstatement, himports, bind, Except.bind, Functor.map, Except.map]
      | ok imports =>
        cases hclass : ClassDecl.read? line.first space (Code.stripAttributes line.text)
        all_goals
          simp [readUse, hstatement, himports, readClass, readProperties, readFunction, owner?,
            hclass, hself, bind, Except.bind, Functor.map, Except.map, pure, Except.pure]

theorem closeClass_frame (r : Reading) (line : LogicalLine) :
    (r.closeClass line).depth = r.depth ∧
      (r.closeClass line).model.imports = r.model.imports ∧
      (r.closeClass line).model.properties = r.model.properties ∧
      (r.closeClass line).model.functions = r.model.functions := by
  unfold closeClass
  split
  · exact ⟨rfl, rfl, rfl, rfl⟩
  · split
    · exact ⟨rfl, rfl, rfl, rfl⟩
    · split <;> exact ⟨rfl, rfl, rfl, rfl⟩

theorem classMove_nextClass (lines : List Text) (r : Reading) (line : LogicalLine)
    (depth after : Int) : ClassMove line after r.openClass (r.nextClass lines line depth) [] := by
  unfold nextClass
  cases hopen : r.openClass with
  | some c =>
    refine .stays c _ ⟨?_, ?_, rfl⟩
    all_goals simp [ClassDecl.foldl_addTrait, ClassDecl.span]
  | none =>
    cases hread : ClassDecl.read? line.first (r.readNamespace line).model.namespaceName
        (Code.stripAttributes line.text) with
    | none => exact .idle
    | some decl =>
      have hspan : decl.span = (line.first, none) := ClassDecl.read?_span hread
      exact .opens _ hspan

/-- Closing turns what a line's declarations did to the open class into what the
whole line does to it. -/
theorem classMove_closeClass {r : Reading} {line : LogicalLine} {before : Option OpenClass}
    (h : ClassMove line r.depth before r.openClass []) :
    ∃ closed, (r.closeClass line).model.classes = r.model.classes ++ closed ∧
      ClassMove line r.depth before (r.closeClass line).openClass closed := by
  unfold closeClass
  cases hopen : r.openClass with
  | none =>
    rw [hopen] at h
    exact ⟨[], by simp, by simpa [hopen] using h⟩
  | some c =>
    rw [hopen] at h
    simp only
    split
    · refine ⟨[], by simp, ?_⟩
      cases h with
      | opens _ hspan => exact .opens _ hspan
      | stays b _ hsame => exact .stays b _ ⟨hsame.name_eq, hsame.span_eq, hsame.depth_eq⟩
    · rename_i hdepth
      split
      · refine ⟨[c.decl.close line.last], rfl, ?_⟩
        cases h with
        | opens _ hspan => exact .opensAndCloses _ hspan
        | stays b _ hsame =>
          have hle : r.depth ≤ b.depth := by
            have hdepth_eq := hsame.depth_eq
            omega
          exact .closes b _ hsame hle
      · exact ⟨[], by simp, by simpa [hopen] using h⟩

/-- What is known of a function when its line is read. A method belongs to the class
that is open before the line, and the line starts directly in that class's body. -/
structure FunctionFacts (r : Reading) (line : LogicalLine) (f : FunctionDecl) : Prop where
  line_eq : f.line = line.first
  keyed : FunctionDecl.ParametersKeyed f.parameters
  plain : line.continues = false
  owned : ∀ owner, f.className = some owner →
    ∃ c, r.openClass = some c ∧ c.decl.name = owner ∧ r.depth = c.depth + 1

/-- What one logical line does to a reading, with the class that it closes. -/
structure Effect (r : Reading) (line : LogicalLine) (r' : Reading) (closed : List ClassDecl) :
    Prop where
  depth_eq : r'.depth = r.depth + line.braceDelta
  imports : ∃ new, r'.model.imports = r.model.imports ++ new ∧ ∀ i ∈ new, i.line = line.first
  properties : ∃ new, r'.model.properties = r.model.properties ++ new ∧
    ∀ p ∈ new, p.line = line.first ∧ ∃ c, r.openClass = some c ∧ c.decl.name = p.className
  functions : ∃ new : Option FunctionDecl,
    r'.model.functions = r.model.functions ++ new.toList ∧ ∀ f ∈ new, FunctionFacts r line f
  classes_eq : r'.model.classes = r.model.classes ++ closed
  move : ClassMove line r'.depth r.openClass r'.openClass closed

theorem Effect.closeClass {r read : Reading} {line : LogicalLine} (h : Effect r line read []) :
    ∃ closed, Effect r line (read.closeClass line) closed := by
  obtain ⟨hdepth, himports, hproperties, hfunctions⟩ := closeClass_frame read line
  obtain ⟨closed, hclasses, hmove⟩ := classMove_closeClass h.move
  have hsame : read.model.classes = r.model.classes := by simpa using h.classes_eq
  exact ⟨closed,
    { depth_eq := hdepth.trans h.depth_eq
      imports := himports ▸ h.imports
      properties := hproperties ▸ h.properties
      functions := hfunctions ▸ h.functions
      classes_eq := hsame ▸ hclasses
      move := hdepth ▸ hmove }⟩

theorem newImports_line {r : Reading} {line : LogicalLine} {imports : List Import}
    (h : r.newImports line = .ok imports) : ∀ i ∈ imports, i.line = line.first := by
  unfold newImports at h
  split at h
  · obtain rfl := Except.ok.inj h
    simp
  · split at h
    · exact fun i hi => Import.ofStatement_line h hi
    · obtain rfl := Except.ok.inj h
      simp

theorem newProperties_facts (lines : List Text) (r : Reading) (line : LogicalLine) (depth : Int) :
    ∀ p ∈ r.newProperties lines line depth,
      p.line = line.first ∧ ∃ c, r.openClass = some c ∧ c.decl.name = p.className := by
  intro p hp
  unfold newProperties at hp
  split at hp
  · rename_i c hopen
    split at hp
    · obtain ⟨q, hq, rfl⟩ := List.mem_map.mp hp
      obtain ⟨hline, howner⟩ := Property.read_line hq
      exact ⟨hline, c, hopen, howner.symm⟩
    · simp at hp
  · simp at hp

theorem newFunction?_facts (lines : List Text) (r : Reading) {line : LogicalLine}
    (hplain : line.continues = false) :
    ∀ f ∈ r.newFunction? lines line r.depth, FunctionFacts r line f := by
  intro f hf
  obtain ⟨g, hg, rfl⟩ := Option.map_eq_some_iff.mp hf
  obtain ⟨hline, hclass, hkeyed⟩ := FunctionDecl.read?_facts hg
  refine ⟨hline, hkeyed, hplain, ?_⟩
  intro owner howner
  change g.className = some owner at howner
  rw [hclass, owner?] at howner
  split at howner
  · rename_i c hopen
    split at howner
    · rename_i hdepth
      exact ⟨c, hopen, Option.some.inj howner, hdepth⟩
    · simp at howner
  · simp at howner

/-- Every line that is read without an error has such an effect. -/
theorem step_effect {lines : List Text} {r r' : Reading} {line : LogicalLine}
    (h : step lines r line = .ok r') : ∃ closed, Effect r line r' closed := by
  unfold step at h
  split at h
  · obtain ⟨read, hread, hclosed⟩ := bind_eq_ok_iff.mp h
    obtain rfl := Except.ok.inj hread
    obtain rfl := Except.ok.inj hclosed
    apply Effect.closeClass
    refine ⟨rfl, ⟨[], by simp⟩, ⟨[], by simp⟩, ⟨none, by simp⟩, by simp, ?_⟩
    cases r.openClass with
    | none => exact .idle
    | some c => exact .stays c c ⟨rfl, rfl, rfl⟩
  · rename_i hcontinues
    obtain ⟨read, hread, hclosed⟩ := bind_eq_ok_iff.mp h
    obtain rfl := Except.ok.inj hclosed
    rw [readDeclarations_eq, map_eq_ok_iff] at hread
    obtain ⟨imports, himports, rfl⟩ := hread
    apply Effect.closeClass
    obtain ⟨space, strict, hheader, -⟩ :=
      header_eq { r with depth := r.depth + line.braceDelta } line
    have hplain : line.continues = false := by simpa using hcontinues
    refine
      { depth_eq := rfl
        imports := ⟨imports, rfl, newImports_line himports⟩
        properties := ⟨_, rfl, newProperties_facts lines r line r.depth⟩
        functions := ⟨_, rfl, newFunction?_facts lines r hplain⟩
        classes_eq := by simp [hheader]
        move :=
          classMove_nextClass lines { r with depth := r.depth + line.braceDelta } line r.depth _ }

theorem run_cons {lines : List Text} {r r' : Reading} {line : LogicalLine}
    {rest : List LogicalLine} :
    (line :: rest).foldlM (step lines) r = .ok r' ↔
      ∃ next, step lines r line = .ok next ∧ rest.foldlM (step lines) next = .ok r' := by
  rw [List.foldlM_cons, bind_eq_ok_iff]

theorem run_append {lines : List Text} {r r' : Reading} {before rest : List LogicalLine} :
    (before ++ rest).foldlM (step lines) r = .ok r' ↔
      ∃ next, before.foldlM (step lines) r = .ok next ∧
        rest.foldlM (step lines) next = .ok r' := by
  rw [List.foldlM_append, bind_eq_ok_iff]

/-- The depth moves by the braces of the lines and by nothing else. -/
theorem run_depth {lines : List Text} {r r' : Reading} {run : List LogicalLine}
    (h : run.foldlM (step lines) r = .ok r') :
    r'.depth = r.depth + (run.map LogicalLine.braceDelta).sum := by
  induction run generalizing r with
  | nil =>
    obtain rfl := Except.ok.inj h
    simp
  | cons line rest ih =>
    obtain ⟨next, hstep, hrest⟩ := run_cons.mp h
    obtain ⟨closed, heffect⟩ := step_effect hstep
    rw [ih hrest, heffect.depth_eq, List.map_cons, List.sum_cons]
    omega

end Reading

theorem ofLines_eq_ok_iff {lines : List Text} {model : SourceModel} :
    ofLines lines = .ok model ↔
      ∃ r, (LogicalLine.ofLines lines).foldlM (Reading.step lines) {} = .ok r ∧
        r.finish = model := by
  rw [ofLines, map_eq_ok_iff]

end SourceModel

end PhpLint
