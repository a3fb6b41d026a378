import PhpLint.Proofs.Declaration.ClassNames
import PhpLint.Proofs.SourceModel.ClassEnd

/-!
The traits of a class. While a class is open, every line that starts in plain code is read
for the names of traits, whatever its brace depth; so a class has the traits of all lines
between its declaration and its end, each once. Those that are named directly in its body
need not be all of them, as a closure or an anonymous class inside a method has lines of its
own.
-/

namespace PhpLint

/-- The traits that a line names where a class is open. -/
def LogicalLine.traitNames (line : LogicalLine) : List Text :=
  if line.continues then [] else ClassDecl.readTraits line.text

namespace ClassDecl

/-- A logical line lies behind the declaration of the class and not behind its end. -/
def Encloses (c : ClassDecl) (line : LogicalLine) : Prop :=
  c.startLine < line.first ∧ ∀ last ∈ c.endLine, line.last ≤ last

instance (c : ClassDecl) (line : LogicalLine) : Decidable (c.Encloses line) :=
  inferInstanceAs (Decidable (_ ∧ _))

/-- The traits that the lines of the class name, each at its first place. -/
def traitsNamed (c : ClassDecl) (run : List LogicalLine) : List Text :=
  ((run.filter fun line => c.Encloses line).flatMap LogicalLine.traitNames).eraseDups

section Lines

variable {c : ClassDecl} {run : List LogicalLine} {line : LogicalLine}

theorem traitsNamed_concat (h : c.Encloses line) :
    c.traitsNamed (run ++ [line]) = line.traitNames.foldl addName (c.traitsNamed run) := by
  simp [traitsNamed, foldl_addName_eraseDups, h]

theorem traitsNamed_concat_of_not (h : ¬ c.Encloses line) :
    c.traitsNamed (run ++ [line]) = c.traitsNamed run := by
  simp [traitsNamed, h]

theorem traitsNamed_congr {d : ClassDecl}
    (h : ∀ line ∈ run, c.Encloses line ↔ d.Encloses line) :
    c.traitsNamed run = d.traitsNamed run := by
  have hfilter : run.filter (fun line => c.Encloses line) =
      run.filter fun line => d.Encloses line := by
    apply List.filter_congr
    intro line hline
    simp [h line hline]
  rw [traitsNamed, hfilter, traitsNamed]

end Lines

end ClassDecl

namespace SourceModel

namespace Reading

/-- After a line has been read and before it closes anything, the open class is the one
that was open, with the traits of the line, or one that the line declares. -/
theorem step_openClass {lines : List Text} {r r' : Reading} {line : LogicalLine}
    (h : step lines r line = .ok r') :
    ∃ read : Reading, r' = read.closeClass line ∧ read.model.classes = r.model.classes ∧
      ∀ c, read.openClass = some c →
        (∃ b, r.openClass = some b ∧ c.decl =
          { b.decl with traits := line.traitNames.foldl ClassDecl.addName b.decl.traits }) ∨
        c.decl.frame = ((line.first, none), []) := by
  unfold step at h
  split at h
  · rename_i hcontinues
    obtain ⟨read, hread, hclosed⟩ := bind_eq_ok_iff.mp h
    obtain rfl := Except.ok.inj hread
    refine ⟨_, (Except.ok.inj hclosed).symm, rfl, ?_⟩
    intro c hc
    exact .inl ⟨c, hc, by simp [LogicalLine.traitNames, hcontinues]⟩
  · rename_i hcontinues
    obtain ⟨read, hread, hclosed⟩ := bind_eq_ok_iff.mp h
    rw [readDeclarations_eq, map_eq_ok_iff] at hread
    obtain ⟨imports, -, rfl⟩ := hread
    obtain ⟨space, strict, hheader, -⟩ :=
      header_eq { r with depth := r.depth + line.braceDelta } line
    refine ⟨_, (Except.ok.inj hclosed).symm, by simp [hheader], ?_⟩
    intro c hc
    change ({ r with depth := r.depth + line.braceDelta } : Reading).nextClass lines line
      r.depth = some c at hc
    unfold nextClass at hc
    split at hc
    · rename_i b hopen
      obtain rfl := Option.some.inj hc
      refine .inl ⟨b, hopen, ?_⟩
      simp [LogicalLine.traitNames, hcontinues, ClassDecl.foldl_addTrait]
    · obtain ⟨d, hd, rfl⟩ := Option.map_eq_some_iff.mp hc
      have hframe : d.frame = ((line.first, none), []) := ClassDecl.read?_frame hd
      exact .inr hframe

/-- Of an open class, the end of a line changes nothing that is recorded, or closes it. -/
theorem closeClass_cases {r : Reading} {c : OpenClass} (hopen : r.openClass = some c)
    (line : LogicalLine) :
    (∃ d, (r.closeClass line).openClass = some d ∧ d.decl = c.decl ∧
        (r.closeClass line).model.classes = r.model.classes) ∨
      (r.closeClass line).openClass = none ∧
        (r.closeClass line).model.classes = r.model.classes ++ [c.decl.close line.last] := by
  unfold closeClass
  simp only [hopen]
  split
  · exact .inl ⟨_, rfl, rfl, rfl⟩
  · split
    · exact .inr ⟨rfl, rfl⟩
    · exact .inl ⟨c, hopen, rfl, rfl⟩

/-- The invariant of the reader, in front of the physical line `stop`: the classes that are
closed ended before it, the open one has begun, and each has the traits that the lines so
far have named. -/
structure Traits (run : List LogicalLine) (stop : Nat) (r : Reading) : Prop where
  passed : ∀ line ∈ run, line.first ≤ line.last ∧ line.last < stop
  closed : ∀ c ∈ r.model.classes,
    (∃ last ∈ c.endLine, last < stop) ∧ c.traits = c.traitsNamed run
  opened : ∀ c, r.openClass = some c →
    c.decl.endLine = none ∧ c.decl.startLine < stop ∧ c.decl.traits = c.decl.traitsNamed run

theorem traits_start : Traits [] 1 {} where
  passed := by simp
  closed := by simp
  opened := by simp

section Step

variable {run : List LogicalLine} {r : Reading} {line : LogicalLine}
  (h : Traits run line.first r) (hle : line.first ≤ line.last)
include h hle

theorem Traits.passed_concat :
    ∀ other ∈ run ++ [line], other.first ≤ line.first ∧ other.first ≤ other.last ∧
      other.last < line.last + 1 := by
  intro other hother
  rcases List.mem_append.mp hother with hold | hnew
  · obtain ⟨hspan, hlast⟩ := h.passed other hold
    omega
  · obtain rfl := List.mem_singleton.mp hnew
    omega

/-- A class that was closed has no more traits behind its end. -/
theorem Traits.closed_concat {c : ClassDecl} (hc : c ∈ r.model.classes) :
    (∃ last ∈ c.endLine, last < line.last + 1) ∧ c.traits = c.traitsNamed (run ++ [line]) := by
  obtain ⟨⟨last, hend, hlast⟩, htraits⟩ := h.closed c hc
  have hbehind : ¬ c.Encloses line := by
    intro henclosed
    have hwithin := henclosed.2 last hend
    omega
  exact ⟨⟨last, hend, by omega⟩, by rw [ClassDecl.traitsNamed_concat_of_not hbehind, htraits]⟩

/-- The class that is open behind a line has the traits of the lines up to it. -/
theorem Traits.opened_concat {lines : List Text} {r' : Reading}
    (hstep : step lines r line = .ok r') :
    ∃ read : Reading, r' = read.closeClass line ∧ read.model.classes = r.model.classes ∧
      ∀ c, read.openClass = some c →
        c.decl.endLine = none ∧ c.decl.startLine < line.last + 1 ∧
          c.decl.traits = c.decl.traitsNamed (run ++ [line]) := by
  obtain ⟨read, hclosed, hclasses, hopened⟩ := step_openClass hstep
  refine ⟨read, hclosed, hclasses, ?_⟩
  intro c hc
  rcases hopened c hc with ⟨b, hb, hdecl⟩ | hframe
  · obtain ⟨hend, hstart, htraits⟩ := h.opened b hb
    have hsame : c.decl.startLine = b.decl.startLine ∧ c.decl.endLine = b.decl.endLine := by
      rw [hdecl]
      exact ⟨rfl, rfl⟩
    have henclosed : b.decl.Encloses line := ⟨hstart, by simp [hend]⟩
    have hnamed : c.decl.traitsNamed (run ++ [line]) = b.decl.traitsNamed (run ++ [line]) := by
      apply ClassDecl.traitsNamed_congr
      intro other _
      rw [ClassDecl.Encloses, ClassDecl.Encloses, hsame.1, hsame.2]
    refine ⟨hsame.2.trans hend, by omega, ?_⟩
    rw [hnamed, ClassDecl.traitsNamed_concat henclosed, ← htraits, hdecl]
  · obtain ⟨hspan, htraits⟩ := Prod.mk.inj hframe
    obtain ⟨hstart, hend⟩ := Prod.mk.inj hspan
    refine ⟨hend, by omega, ?_⟩
    have hnone : ∀ other ∈ run ++ [line], ¬ c.decl.Encloses other := by
      intro other hother henclosed
      have hfirst := (h.passed_concat hle other hother).1
      have hbehind := henclosed.1
      omega
    have hfilter : (run ++ [line]).filter (fun other => c.decl.Encloses other) = [] := by
      rw [List.filter_eq_nil_iff]
      simpa only [decide_eq_true_eq] using hnone
    rw [htraits, ClassDecl.traitsNamed, hfilter]
    rfl

/-- One logical line keeps the invariant. -/
theorem traits_step {lines : List Text} {r' : Reading} (hstep : step lines r line = .ok r') :
    Traits (run ++ [line]) (line.last + 1) r' := by
  have hpassed := h.passed_concat hle
  obtain ⟨read, rfl, hclasses, hopened⟩ := h.opened_concat hle hstep
  have hold : ∀ c ∈ read.model.classes,
      (∃ last ∈ c.endLine, last < line.last + 1) ∧ c.traits = c.traitsNamed (run ++ [line]) := by
    intro c hc
    exact h.closed_concat hle (hclasses ▸ hc)
  refine ⟨fun other hother => (hpassed other hother).2, ?_, ?_⟩
  · intro c hc
    cases hopen : read.openClass with
    | none =>
      simp only [closeClass, hopen] at hc
      exact hold c hc
    | some o =>
      rcases closeClass_cases hopen line with ⟨-, -, -, hsame⟩ | ⟨-, hnew⟩
      · exact hold c (hsame ▸ hc)
      · rw [hnew] at hc
        rcases List.mem_append.mp hc with hc | hc
        · exact hold c hc
        · obtain rfl := List.mem_singleton.mp hc
          obtain ⟨hend, hstart, htraits⟩ := hopened o hopen
          refine ⟨⟨max line.last o.decl.startLine, rfl, by omega⟩, ?_⟩
          -- No line so far lies behind the one that closes the class.
          refine htraits.trans (ClassDecl.traitsNamed_congr fun other hother => ?_)
          have hlast := (hpassed other hother).2.2
          apply and_congr_right
          intro _
          simp only [hend, ClassDecl.close, Option.mem_def, reduceCtorEq, false_imp_iff,
            implies_true, Option.some.injEq, forall_eq', true_iff]
          omega
  · intro c hc
    cases hopen : read.openClass with
    | none =>
      simp only [closeClass, hopen] at hc
      cases hc
    | some o =>
      rcases closeClass_cases hopen line with ⟨d, hd, hdecl, -⟩ | ⟨hnone, -⟩
      · obtain rfl := Option.some.inj (hd.symm.trans hc)
        rw [hdecl]
        exact hopened o hopen
      · rw [hnone] at hc
        cases hc

end Step

theorem traits_run {lines : List Text} {run rest : List LogicalLine} {r r' : Reading}
    {start stop : Nat} (h : Traits run start r) (htiles : LogicalLine.Tiles start rest stop)
    (hrun : rest.foldlM (step lines) r = .ok r') : Traits (run ++ rest) stop r' := by
  induction rest generalizing run r start with
  | nil =>
    obtain rfl := Except.ok.inj hrun
    obtain rfl : start = stop := htiles
    simpa using h
  | cons line rest ih =>
    obtain ⟨rfl, hle, hrest⟩ := htiles
    obtain ⟨next, hstep, hnext⟩ := run_cons.mp hrun
    rw [List.append_cons]
    exact ih (traits_step h hle hstep) hrest hnext

theorem traits_ofLines {lines : List Text} {r : Reading}
    (hrun : (LogicalLine.ofLines lines).foldlM (step lines) {} = .ok r) :
    Traits (LogicalLine.ofLines lines) (lines.length + 1) r := by
  have htiles := (LogicalLine.cuts_ofLines lines).tiles
  rw [Nat.add_comm] at htiles
  exact traits_run traits_start htiles hrun

end Reading

/-- Of a class in the model of a file, the traits are those that its lines name. -/
theorem traits_eq_traitsNamed {lines : List Text} {model : SourceModel}
    (h : ofLines lines = .ok model) {c : ClassDecl} (hc : c ∈ model.classes) :
    c.traits = c.traitsNamed (LogicalLine.ofLines lines) := by
  obtain ⟨r, hrun, rfl⟩ := ofLines_eq_ok_iff.mp h
  have htraits := Reading.traits_ofLines hrun
  rcases List.mem_append.mp hc with hclosed | hopen
  · exact (htraits.closed c hclosed).2
  · obtain ⟨o, ho, rfl⟩ := Option.map_eq_some_iff.mp (Option.mem_toList.mp hopen)
    exact (htraits.opened o ho).2.2

theorem exists_recordedFrom {lines : List Text} {model : SourceModel}
    (h : ofLines lines = .ok model) {c : ClassDecl} (hc : c ∈ model.classes) :
    ∃ (start : Nat) (opening : LogicalLine),
      (LogicalLine.ofLines lines)[start]? = some opening ∧ c.RecordedFrom opening := by
  obtain ⟨r, hrun, rfl⟩ := ofLines_eq_ok_iff.mp h
  have htiles := (LogicalLine.cuts_ofLines lines).tiles
  obtain ⟨start, opening, hopening, hrecorded, -⟩ := (ends_ofLines hrun).class_end htiles hc
  exact ⟨start, opening, hopening, hrecorded⟩

/-- The line at an index of the file is a line of the class, starts in plain code and names
the trait. -/
def NamesTrait (lines : List Text) (c : ClassDecl) (index : Nat) (name : Text) : Prop :=
  ∃ line, (LogicalLine.ofLines lines)[index]? = some line ∧ c.Encloses line ∧
    line.continues = false ∧ name ∈ ClassDecl.readTraits line.text

/-- The line at an index starts directly in the body of the class that the line at the index
`start` declares. -/
def DirectlyInside (lines : List Text) (start index : Nat) : Prop :=
  LogicalLine.depthAfter (LogicalLine.ofLines lines) index =
    LogicalLine.depthAfter (LogicalLine.ofLines lines) start + 1

instance (lines : List Text) (start index : Nat) : Decidable (DirectlyInside lines start index) :=
  inferInstanceAs (Decidable (_ = _))

theorem mem_traitsNamed_iff {lines : List Text} {c : ClassDecl} {name : Text} :
    name ∈ c.traitsNamed (LogicalLine.ofLines lines) ↔
      ∃ index, NamesTrait lines c index name := by
  simp only [ClassDecl.traitsNamed, List.mem_eraseDups, List.mem_flatMap, List.mem_filter,
    decide_eq_true_eq]
  constructor
  · rintro ⟨line, ⟨hline, henclosed⟩, hname⟩
    obtain ⟨index, hindex⟩ := List.mem_iff_getElem?.mp hline
    rw [LogicalLine.traitNames] at hname
    split at hname
    · cases hname
    · rename_i hcontinues
      exact ⟨index, line, hindex, henclosed, by simpa using hcontinues, hname⟩
  · rintro ⟨index, line, hindex, henclosed, hplain, hname⟩
    exact ⟨line, ⟨List.mem_of_getElem? hindex, henclosed⟩,
      by simpa [LogicalLine.traitNames, hplain] using hname⟩

/-- A class has the traits that its lines name, in order and each once: a trait of the class
is named by a line that starts in plain code behind the declaration and not behind the end,
and every such line counts, at whatever depth it starts. So the traits are those that are
named directly in the body of the class exactly if no line that starts at another depth
names one that no line directly in the body names. -/
theorem traits_named_in_class {lines : List Text} {model : SourceModel}
    (h : ofLines lines = .ok model) {c : ClassDecl} (hc : c ∈ model.classes) :
    c.traits = c.traitsNamed (LogicalLine.ofLines lines) ∧
      (∀ name, name ∈ c.traits ↔ ∃ index, NamesTrait lines c index name) ∧
      ∃ (start : Nat) (opening : LogicalLine),
        (LogicalLine.ofLines lines)[start]? = some opening ∧ c.RecordedFrom opening ∧
        ((∀ name ∈ c.traits, ∃ index, NamesTrait lines c index name ∧
            DirectlyInside lines start index) ↔
          ∀ index name, NamesTrait lines c index name → ¬ DirectlyInside lines start index →
            ∃ direct, NamesTrait lines c direct name ∧ DirectlyInside lines start direct) := by
  have htraits := traits_eq_traitsNamed h hc
  have hmem : ∀ name, name ∈ c.traits ↔ ∃ index, NamesTrait lines c index name := by
    intro name
    rw [htraits]
    exact mem_traitsNamed_iff
  obtain ⟨start, opening, hopening, hrecorded⟩ := exists_recordedFrom h hc
  refine ⟨htraits, hmem, start, opening, hopening, hrecorded, ?_⟩
  constructor
  · intro hdirect index name hnames _
    exact hdirect name ((hmem name).mpr ⟨index, hnames⟩)
  · intro hdeeper name hname
    obtain ⟨index, hnames⟩ := (hmem name).mp hname
    by_cases hinside : DirectlyInside lines start index
    · exact ⟨index, hnames, hinside⟩
    · exact hdeeper index name hnames hinside

/-- A class with a trait, and a method that makes an object of a class without a name. -/
def classAround (inner : String) : List Text :=
  ["class Factory \x7b", "  use Cached;", "  function make() \x7b", "    return new class \x7b",
    inner, "    \x7d;", "  \x7d", "\x7d"].map String.toList

theorem exists_class_of_reads (lines traits : List Text) (span : Nat × Option Nat)
    (h : (fun m : SourceModel => m.classes.map fun c => (c.span, c.traits)) <$> ofLines lines =
      .ok [(span, traits)]) :
    ∃ model c, ofLines lines = .ok model ∧ c ∈ model.classes ∧ c.span = span ∧
      c.traits = traits := by
  obtain ⟨model, hmodel, hclasses⟩ := map_eq_ok_iff.mp h
  obtain ⟨c, hc, hfacts⟩ : ∃ c ∈ model.classes, (c.span, c.traits) = (span, traits) :=
    List.mem_map.mp (by simp [hclasses])
  obtain ⟨hspan, htraits⟩ := Prod.mk.inj hfacts
  exact ⟨model, c, hmodel, hc, hspan, htraits⟩

/-- The inner class uses the trait that the outer one uses. -/
theorem traits_named_in_class_repeated :
    ∃ model c, ofLines (classAround "use Cached;") = .ok model ∧ c ∈ model.classes ∧
      c.traits = ["Cached".toList] ∧
      ∀ name ∈ c.traits, ∃ index, NamesTrait (classAround "use Cached;") c index name ∧
        DirectlyInside (classAround "use Cached;") 0 index := by
  obtain ⟨model, c, hmodel, hc, hspan, htraits⟩ :=
    exists_class_of_reads (classAround "use Cached;") ["Cached".toList] (1, some 8)
      (by decide +kernel)
  obtain ⟨hstart, hend⟩ := Prod.mk.inj hspan
  obtain ⟨-, hmem, start, opening, hopening, hrecorded, hinside⟩ := traits_named_in_class hmodel hc
  have htiles := (LogicalLine.cuts_ofLines (classAround "use Cached;")).tiles
  obtain ⟨first, hfirst, hnumber⟩ : ∃ first,
      (LogicalLine.ofLines (classAround "use Cached;"))[0]? = some first ∧ first.first = 1 :=
    Option.map_eq_some_iff.mp (by decide +kernel)
  obtain rfl : start = 0 :=
    htiles.index_eq hopening hfirst (hrecorded.start_eq.symm.trans (hstart.trans hnumber.symm))
  obtain ⟨line, hline, hfacts⟩ : ∃ line,
      (LogicalLine.ofLines (classAround "use Cached;"))[1]? = some line ∧
        (line.first, line.last, line.continues, ClassDecl.readTraits line.text) =
          (2, 2, false, ["Cached".toList]) :=
    Option.map_eq_some_iff.mp (by decide +kernel)
  simp only [Prod.mk.injEq] at hfacts
  obtain ⟨hlineFirst, hlineLast, hplain, hnames⟩ := hfacts
  have hdirect : NamesTrait (classAround "use Cached;") c 1 "Cached".toList := by
    refine ⟨line, hline, ⟨by omega, ?_⟩, hplain, by simp [hnames]⟩
    simp [hend, hlineLast]
  refine ⟨model, c, hmodel, hc, htraits, hinside.mpr ?_⟩
  intro index name hname _
  have hcached := (hmem name).mpr ⟨index, hname⟩
  rw [htraits] at hcached
  rw [List.mem_singleton.mp hcached]
  exact ⟨1, hdirect, by decide +kernel⟩

/-- The inner class uses a trait of its own, and the outer one has it as well. -/
theorem trait_of_nested_class :
    ∃ model c opening, ofLines (classAround "use Counted;") = .ok model ∧ c ∈ model.classes ∧
      (LogicalLine.ofLines (classAround "use Counted;"))[0]? = some opening ∧
      c.RecordedFrom opening ∧ "Counted".toList ∈ c.traits ∧
      ∀ index, NamesTrait (classAround "use Counted;") c index "Counted".toList →
        ¬ DirectlyInside (classAround "use Counted;") 0 index := by
  obtain ⟨model, c, hmodel, hc, hspan, htraits⟩ :=
    exists_class_of_reads (classAround "use Counted;") (["Cached", "Counted"].map String.toList)
      (1, some 8) (by decide +kernel)
  obtain ⟨opening, hopening, hnumber⟩ : ∃ opening,
      (LogicalLine.ofLines (classAround "use Counted;"))[0]? = some opening ∧ opening.first = 1 :=
    Option.map_eq_some_iff.mp (by decide +kernel)
  have hrecorded : c.RecordedFrom opening :=
    recordedFrom_of_first_eq hmodel hc hopening (hnumber.trans (Prod.mk.inj hspan).1.symm)
  have hdeep : ∀ index < 8,
      ((LogicalLine.ofLines (classAround "use Counted;"))[index]?.any fun line =>
        (ClassDecl.readTraits line.text).contains "Counted".toList) = true →
      ¬ DirectlyInside (classAround "use Counted;") 0 index := by
    decide +kernel
  refine ⟨model, c, opening, hmodel, hc, hopening, hrecorded, by simp [htraits], ?_⟩
  rintro index ⟨line, hline, -, -, hname⟩
  have hlength : (LogicalLine.ofLines (classAround "use Counted;")).length = 8 := by
    decide +kernel
  have hlt := (List.getElem?_eq_some_iff.mp hline).1
  exact hdeep index (hlength ▸ hlt) (by simpa [hline] using hname)

end SourceModel

end PhpLint
