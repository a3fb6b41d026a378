import PhpLint.Proofs.Declaration.Suffix
import PhpLint.Proofs.DocBlock.Lookup
import PhpLint.Proofs.LogicalLine.Split
import PhpLint.Proofs.Text.Basic

/-!
The doc comments of the declarations of a file. Every class, function and property has
the doc comment that stands above the line of its declaration. One comment can
be seen by declarations on two lines, but only past a declaration whose line starts
with an attribute or ends a comment.
-/

namespace PhpLint

namespace DocBlock

theorem isInner_iff {s : Text} :
    isInner s = true ↔ Text.trimStart s = [] ∨ ∃ t, Text.trimStart s = '*' :: t := by
  cases h : Text.trimStart s with
  | nil => simp [isInner, Text.trim, h]
  | cons c t => simp [isInner, Text.trim_of_trimStart h]

/-- Comments on a line that starts in code leave its first character alone, unless the
line starts with a comment. -/
theorem isInner_scan {raw : Text} (h : isInner raw = true) (keep : Bool) :
    isInner (Scrubber.scan keep .code raw).1 = true := by
  rw [isInner_iff] at h ⊢
  induction raw with
  | nil => simp [Scrubber.scan]
  | cons c raw ih =>
    cases hc : Text.isBlank c with
    | true =>
      have hplain : c ∉ ['/', '#', '<', '\'', '"', '`'] := Text.not_mem_of_class hc rfl
      rw [Scrubber.scan_code_cons hplain, Text.trimStart_cons_of_blank hc]
      rw [Text.trimStart_cons_of_blank hc] at h
      exact ih h
    | false =>
      rw [Text.trimStart_cons_of_not_blank hc] at h
      simp only [reduceCtorEq, List.cons.injEq, false_or, exists_and_left, exists_eq',
        and_true] at h
      subst h
      rw [Scrubber.scan_code_cons (by decide), Text.trimStart_cons_of_not_blank hc]
      exact Or.inr ⟨_, rfl⟩

end DocBlock

namespace Code

theorem stripAttributes_of_isInner {s : Text} (h : DocBlock.isInner s = true) :
    stripAttributes s = Text.trimStart s := by
  apply stripAttributes_of_dropAttribute?
  rcases DocBlock.isInner_iff.mp h with hnil | ⟨t, hstar⟩
  · rw [hnil]
    rfl
  · rw [hstar]
    rfl

theorem trimStart_stripAttributes_of_isInner {s : Text} (h : DocBlock.isInner s = true) :
    Text.trimStart (stripAttributes s) = [] ∨
      ∃ t, Text.trimStart (stripAttributes s) = '*' :: t := by
  rw [stripAttributes_of_isInner h]
  rcases DocBlock.isInner_iff.mp h with hnil | ⟨t, hstar⟩
  · simp [hnil]
  · rw [hstar]
    exact Or.inr ⟨t, Text.trimStart_cons_of_not_blank (by decide) t⟩

end Code

section NoDeclaration

variable {s : Text} (h : Text.trimStart s = [] ∨ ∃ t, Text.trimStart s = '*' :: t)
include h

theorem ClassDecl.readHead?_of_inner : ClassDecl.readHead? s = none := by
  rcases h with h | ⟨t, h⟩
  all_goals
    rw [ClassDecl.readHead?, h, Modifier.readAll_of_anyKeyword? rfl]
    rfl

theorem FunctionDecl.readHead?_of_inner : FunctionDecl.readHead? s = none := by
  rcases h with h | ⟨t, h⟩
  all_goals
    rw [FunctionDecl.readHead?, h, Modifier.readAll_of_anyKeyword? rfl]
    rfl

theorem Property.readHead?_of_inner : Property.readHead? s = none := by
  rcases h with h | ⟨t, h⟩
  all_goals rw [Property.readHead?, h, Modifier.readAll_of_anyKeyword? rfl]

end NoDeclaration

theorem ClassDecl.not_inner_of_read? {line : Nat} {space : Option Text} {s : Text} {c : ClassDecl}
    (h : ClassDecl.read? line space (Code.stripAttributes s) = some c) :
    DocBlock.isInner s = false := by
  by_contra hinner
  rw [Bool.not_eq_false] at hinner
  have hnone := ClassDecl.readHead?_of_inner (Code.trimStart_stripAttributes_of_isInner hinner)
  simp [ClassDecl.read?, hnone] at h

theorem FunctionDecl.not_inner_of_read? {line : Nat} {owner : Option Text} {s : Text}
    {f : FunctionDecl} (h : FunctionDecl.read? line owner (Code.stripAttributes s) = some f) :
    DocBlock.isInner s = false := by
  by_contra hinner
  rw [Bool.not_eq_false] at hinner
  have hnone := FunctionDecl.readHead?_of_inner (Code.trimStart_stripAttributes_of_isInner hinner)
  rw [FunctionDecl.read?, hnone] at h
  cases h

theorem Property.not_inner_of_mem_read {line : Nat} {owner : Text} {classReadonly : Bool} {s : Text}
    {p : Property} (h : p ∈ Property.read line owner classReadonly (Code.stripAttributes s)) :
    DocBlock.isInner s = false := by
  by_contra hinner
  rw [Bool.not_eq_false] at hinner
  have hnone := Property.readHead?_of_inner (Code.trimStart_stripAttributes_of_isInner hinner)
  simp [Property.read, hnone] at h

namespace LogicalLine

/-- A logical line that starts in plain code on a physical line that is blank or starts with
an asterisk has a text that does so too. -/
theorem isInner_text {number : Nat} {raw : Text} {left : List Text} {line : LogicalLine}
    {rest : List LogicalLine}
    (h : ofLinesFrom number {} { keepLiterals := true } none (raw :: left) = line :: rest)
    (hraw : DocBlock.isInner raw = true) : DocBlock.isInner line.text = true := by
  have htext : DocBlock.isInner (({ keepLiterals := true } : Scrubber).scrub raw).1 = true :=
    DocBlock.isInner_scan hraw true
  have hstart := Code.trimStart_stripAttributes_of_isInner htext
  rw [ofLinesFrom] at h
  simp only [pending?, ClassDecl.readHead?_of_inner hstart, FunctionDecl.readHead?_of_inner hstart]
    at h
  simp only [Option.isSome_none, Bool.false_eq_true, Bool.false_and, if_false, ite_self,
    List.cons.injEq] at h
  rw [← h.1]
  exact htext

end LogicalLine

namespace SourceModel

/-- The classes, functions and properties of a model, each as the line of its
declaration and its doc comment. -/
def documented (m : SourceModel) : List (Nat × Option DocBlock) :=
  m.classes.map (fun c => (c.startLine, c.doc)) ++ m.functions.map (fun f => (f.line, f.doc)) ++
    m.properties.map (fun p => (p.line, p.doc))

theorem mem_documented_of_class {m : SourceModel} {c : ClassDecl} (h : c ∈ m.classes) :
    (c.startLine, c.doc) ∈ m.documented := by
  simp only [documented, List.mem_append, List.mem_map]
  exact Or.inl (Or.inl ⟨c, h, rfl⟩)

theorem mem_documented_of_function {m : SourceModel} {f : FunctionDecl} (h : f ∈ m.functions) :
    (f.line, f.doc) ∈ m.documented := by
  simp only [documented, List.mem_append, List.mem_map]
  exact Or.inl (Or.inr ⟨f, h, rfl⟩)

theorem mem_documented_of_property {m : SourceModel} {p : Property} (h : p ∈ m.properties) :
    (p.line, p.doc) ∈ m.documented := by
  simp only [documented, List.mem_append, List.mem_map]
  exact Or.inr ⟨p, h, rfl⟩

theorem documented_ne_nil {m : SourceModel} (h : m.hasDeclarations = true) :
    m.documented ≠ [] := by
  simp only [hasDeclarations, Bool.or_eq_true, Bool.not_eq_true', List.isEmpty_eq_false_iff] at h
  simp only [documented, ne_eq, List.append_eq_nil_iff, List.map_eq_nil_iff]
  tauto

namespace Reading

theorem documented_closeClass (r : Reading) (line : LogicalLine) :
    (r.closeClass line).finish.documented = r.finish.documented := by
  unfold closeClass
  cases hopen : r.openClass with
  | none => rfl
  | some c =>
    simp only
    split
    · simp [finish, documented, hopen]
    · split
      · simp [finish, documented, hopen, ClassDecl.close]
      · rfl

/-- The class that is open once a line has been read was open before it, or the line
declares it. -/
theorem documented_nextClass {lines : List Text} {r : Reading} {line : LogicalLine} {depth : Int}
    {c : OpenClass} (h : r.nextClass lines line depth = some c) :
    (∃ b, r.openClass = some b ∧ (b.decl.startLine, b.decl.doc) = (c.decl.startLine, c.decl.doc)) ∨
      (DocBlock.isInner line.text = false ∧
        (c.decl.startLine, c.decl.doc) = (line.first, DocBlock.above? lines line.first)) := by
  unfold nextClass at h
  split at h
  · rename_i b hopen
    obtain rfl := Option.some.inj h
    exact Or.inl ⟨b, hopen, by simp [ClassDecl.foldl_addTrait]⟩
  · obtain ⟨decl, hread, rfl⟩ := Option.map_eq_some_iff.mp h
    have hstart : decl.startLine = line.first := congrArg Prod.fst (ClassDecl.read?_span hread)
    exact Or.inr ⟨ClassDecl.not_inner_of_read? hread, by rw [hstart]⟩

theorem documented_newFunction? {lines : List Text} {r : Reading} {line : LogicalLine} {depth : Int}
    {f : FunctionDecl} (h : r.newFunction? lines line depth = some f) :
    DocBlock.isInner line.text = false ∧
      (f.line, f.doc) = (line.first, DocBlock.above? lines line.first) := by
  obtain ⟨g, hread, rfl⟩ := Option.map_eq_some_iff.mp h
  exact ⟨FunctionDecl.not_inner_of_read? hread, by rw [(FunctionDecl.read?_facts hread).1]⟩

theorem documented_newProperties {lines : List Text} {r : Reading} {line : LogicalLine}
    {depth : Int} {p : Property} (h : p ∈ r.newProperties lines line depth) :
    DocBlock.isInner line.text = false ∧
      (p.line, p.doc) = (line.first, DocBlock.above? lines line.first) := by
  have hline := (newProperties_facts lines r line depth p h).1
  unfold newProperties at h
  split at h
  · split at h
    · obtain ⟨q, hread, rfl⟩ := List.mem_map.mp h
      exact ⟨Property.not_inner_of_mem_read hread, by rw [hline]⟩
    · simp at h
  · simp at h

/-- What is recorded after a line was recorded before it, or the line declares it. -/
theorem documented_step {lines : List Text} {r r' : Reading} {line : LogicalLine}
    (h : step lines r line = .ok r') {e : Nat × Option DocBlock} (he : e ∈ r'.finish.documented) :
    e ∈ r.finish.documented ∨
      (line.continues = false ∧ DocBlock.isInner line.text = false ∧
        e = (line.first, DocBlock.above? lines line.first)) := by
  unfold step at h
  split at h
  · obtain ⟨read, hread, hclosed⟩ := bind_eq_ok_iff.mp h
    obtain rfl := Except.ok.inj hread
    obtain rfl := Except.ok.inj hclosed
    rw [documented_closeClass] at he
    exact Or.inl he
  · rename_i hcontinues
    obtain ⟨read, hread, hclosed⟩ := bind_eq_ok_iff.mp h
    obtain rfl := Except.ok.inj hclosed
    rw [documented_closeClass] at he
    have hplain : line.continues = false := by simpa using hcontinues
    rw [readDeclarations_eq, map_eq_ok_iff] at hread
    obtain ⟨imports, -, rfl⟩ := hread
    obtain ⟨space, strict, hheader, -⟩ :=
      header_eq { r with depth := r.depth + line.braceDelta } line
    have hnew : e ∈ r.finish.documented ∨ (DocBlock.isInner line.text = false ∧
        e = (line.first, DocBlock.above? lines line.first)) := by
      simp only [documented, finish, hheader, List.map_append, List.mem_append] at he
      rcases he with ((hclass | hclass) | hfunction | hfunction) | hproperty | hproperty
      · left
        simp [documented, finish, hclass]
      · obtain ⟨decl, hdecl, rfl⟩ := List.mem_map.mp hclass
        obtain ⟨c, hc, rfl⟩ := Option.map_eq_some_iff.mp (Option.mem_toList.mp hdecl)
        rcases documented_nextClass hc with ⟨b, hopen, hsame⟩ | hdeclares
        · left
          have hopen : r.openClass = some b := hopen
          simp [documented, finish, hopen, ← hsame]
        · exact Or.inr hdeclares
      · left
        simp [documented, finish, hfunction]
      · obtain ⟨f, hf, rfl⟩ := List.mem_map.mp hfunction
        exact Or.inr (documented_newFunction? (Option.mem_toList.mp hf))
      · left
        simp [documented, finish, hproperty]
      · obtain ⟨p, hp, rfl⟩ := List.mem_map.mp hproperty
        exact Or.inr (documented_newProperties hp)
    exact hnew.imp_right fun hdeclares => ⟨hplain, hdeclares⟩

theorem documented_run {lines : List Text} {run : List LogicalLine} {r r' : Reading}
    (h : run.foldlM (step lines) r = .ok r') {e : Nat × Option DocBlock}
    (he : e ∈ r'.finish.documented) :
    e ∈ r.finish.documented ∨
      ∃ line ∈ run, line.continues = false ∧ DocBlock.isInner line.text = false ∧
        e = (line.first, DocBlock.above? lines line.first) := by
  induction run generalizing r with
  | nil =>
    obtain rfl := Except.ok.inj h
    exact Or.inl he
  | cons line rest ih =>
    obtain ⟨next, hstep, hrest⟩ := run_cons.mp h
    rcases ih hrest with hnext | ⟨later, hlater, hfacts⟩
    · rcases documented_step hstep hnext with hold | hnew
      · exact Or.inl hold
      · exact Or.inr ⟨line, List.mem_cons_self, hnew⟩
    · exact Or.inr ⟨later, List.mem_cons_of_mem _ hlater, hfacts⟩

end Reading

/-- A declaration stands on a line of the file that is neither blank nor starts with an
asterisk, and has the doc comment above that line. -/
theorem documented_facts {lines : List Text} {model : SourceModel} (h : ofLines lines = .ok model)
    {e : Nat × Option DocBlock} (he : e ∈ model.documented) :
    e.2 = DocBlock.above? lines e.1 ∧
      ∃ raw, lines[e.1 - 1]? = some raw ∧ DocBlock.isInner raw = false := by
  obtain ⟨r, hrun, rfl⟩ := ofLines_eq_ok_iff.mp h
  rcases Reading.documented_run hrun he with hnone | ⟨line, hline, hplain, htext, rfl⟩
  · simp [Reading.finish, documented] at hnone
  refine ⟨rfl, ?_⟩
  obtain ⟨passed, rest, hlines⟩ := List.append_of_mem hline
  obtain ⟨before, left, rfl, hfirst, hleft⟩ := LogicalLine.ofLines_split_plain hlines hplain
  cases left with
  | nil => simp [LogicalLine.ofLinesFrom] at hleft
  | cons raw left =>
    refine ⟨raw, by simp [hfirst], ?_⟩
    by_contra hinner
    rw [Bool.not_eq_false] at hinner
    rw [LogicalLine.isInner_text hleft hinner] at htext
    cases htext

/-- The doc comments of two declarations share a line exactly where the declarations
share theirs, or where the later declaration sees lines of the other one's comment
past that declaration. -/
theorem documented_overlap_iff {lines : List Text} {model : SourceModel}
    (h : ofLines lines = .ok model) {line line' : Nat} {d d' : DocBlock}
    (he : (line, some d) ∈ model.documented) (he' : (line', some d') ∈ model.documented) :
    (d.startLine ≤ d'.endLine ∧ d'.startLine ≤ d.endLine) ↔
      line = line' ∨ (line < line' ∧ DocBlock.SeenPast lines line d d') ∨
        (line' < line ∧ DocBlock.SeenPast lines line' d' d) := by
  obtain ⟨hdoc, raw, hraw, hinner⟩ := documented_facts h he
  obtain ⟨hdoc', raw', hraw', hinner'⟩ := documented_facts h he'
  have hle := (DocBlock.above_of_above? hdoc.symm).start_le
  have hle' := (DocBlock.above_of_above? hdoc'.symm).start_le
  constructor
  · rintro ⟨hoverlap, hoverlap'⟩
    rcases Nat.lt_trichotomy line line' with hlt | hsame | hgt
    · exact Or.inr (Or.inl ⟨hlt, DocBlock.seenPast_of_overlap hdoc.symm hdoc'.symm hlt hraw hinner
        hoverlap' hoverlap⟩)
    · exact Or.inl hsame
    · exact Or.inr (Or.inr ⟨hgt, DocBlock.seenPast_of_overlap hdoc'.symm hdoc.symm hgt hraw' hinner'
        hoverlap hoverlap'⟩)
  · rintro (rfl | ⟨-, -, -, ⟨-, rfl⟩ | ⟨-, -, hstart, -⟩⟩ | ⟨-, -, -, ⟨-, rfl⟩ | ⟨-, -, hstart, -⟩⟩)
    · obtain rfl := Option.some.inj (hdoc.trans hdoc'.symm)
      exact ⟨hle, hle⟩
    · exact ⟨hle, hle⟩
    · omega
    · exact ⟨hle, hle⟩
    · omega

/-- A function that has an attribute on its own line stands between a comment and a
second function. -/
def attributed : List Text :=
  ["/** First. */", "#[Pure] function f() \x7b\x7d", "function g() \x7b\x7d"].map String.toList

theorem documented_attributed :
    ∃ model, ofLines attributed = .ok model ∧
      model.documented = [2, 3].map fun line =>
        (line, some (DocBlock.parse "/** First. */".toList 1 1)) := by
  have hread : documented <$> ofLines attributed = .ok ([2, 3].map fun line =>
      (line, some (DocBlock.parse "/** First. */".toList 1 1))) := by
    decide +kernel
  exact map_eq_ok_iff.mp hread

theorem documented_overlap_iff_attributed :
    ∃ model d d', ofLines attributed = .ok model ∧ (2, some d) ∈ model.documented ∧
      (3, some d') ∈ model.documented ∧
      ((d.startLine ≤ d'.endLine ∧ d'.startLine ≤ d.endLine) ↔
        2 = 3 ∨ (2 < 3 ∧ DocBlock.SeenPast attributed 2 d d') ∨
          (3 < 2 ∧ DocBlock.SeenPast attributed 3 d' d)) := by
  obtain ⟨model, hmodel, hdocumented⟩ := documented_attributed
  have he (line : Nat) (hline : line ∈ [2, 3]) :
      (line, some (DocBlock.parse "/** First. */".toList 1 1)) ∈ model.documented := by
    rw [hdocumented]
    exact List.mem_map_of_mem hline
  exact ⟨model, _, _, hmodel, he 2 (by decide), he 3 (by decide),
    documented_overlap_iff hmodel (he 2 (by decide)) (he 3 (by decide))⟩

/-- A comment stands behind a function that has a doc comment, on the same line. -/
def trailing : List Text :=
  ["/**", " * First.", " */", "function f() \x7b\x7d /* Second. */",
    "function g() \x7b\x7d"].map String.toList

/-- One comment can belong to the functions of two lines, and the doc comments of two
functions can have lines in common without being the same. -/
theorem documented_overlap_across_lines :
    (∃ model d, ofLines attributed = .ok model ∧ (2, some d) ∈ model.documented ∧
      (3, some d) ∈ model.documented ∧ d.span = (1, 1)) ∧
    ∃ model d d', ofLines trailing = .ok model ∧ (4, some d) ∈ model.documented ∧
      (5, some d') ∈ model.documented ∧ d.span = (1, 3) ∧ d'.span = (1, 4) := by
  constructor
  · obtain ⟨model, hmodel, hdocumented⟩ := documented_attributed
    refine ⟨model, DocBlock.parse "/** First. */".toList 1 1, hmodel, ?_, ?_,
      DocBlock.span_parse _ 1 1⟩
    all_goals simp [hdocumented]
  · have hread : documented <$> ofLines trailing =
        .ok [(4, DocBlock.above? trailing 4), (5, DocBlock.above? trailing 5)] := by
      decide +kernel
    obtain ⟨model, hmodel, hdocumented⟩ := map_eq_ok_iff.mp hread
    have hspans : (DocBlock.above? trailing 4).map DocBlock.span = some (1, 3) ∧
        (DocBlock.above? trailing 5).map DocBlock.span = some (1, 4) := by
      decide +kernel
    obtain ⟨d, hd, hspan⟩ := Option.map_eq_some_iff.mp hspans.1
    obtain ⟨d', hd', hspan'⟩ := Option.map_eq_some_iff.mp hspans.2
    exact ⟨model, d, d', hmodel, by simp [hdocumented, hd], by simp [hdocumented, hd'], hspan,
      hspan'⟩

end SourceModel

end PhpLint
