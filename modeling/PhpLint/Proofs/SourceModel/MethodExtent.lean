import PhpLint.Check.Structure
import PhpLint.Proofs.Code.Body
import PhpLint.Proofs.SourceModel.WellFormed

/-!
Two counters of braces agree on where a method ends. The parser counts over joined
logical lines with one scrubber for the whole file; the scan for the end of a body
counts over physical lines with a scrubber of its own, from the declaration on. A
method is recorded on a line that starts in plain code, so both scrubbers return
the same code from there, and a class is closed only by a brace that the scan of
its method would not have passed.
-/

namespace PhpLint.SourceModel

namespace Reading

theorem run_classes {lines : List Text} {run : List LogicalLine} {r r' : Reading}
    (hrun : run.foldlM (step lines) r = .ok r') :
    ∃ more, r'.model.classes = r.model.classes ++ more := by
  induction run generalizing r with
  | nil =>
    obtain rfl := Except.ok.inj hrun
    exact ⟨[], by simp⟩
  | cons line rest ih =>
    obtain ⟨next, hstep, hnext⟩ := run_cons.mp hrun
    obtain ⟨closed, heffect⟩ := step_effect hstep
    obtain ⟨more, hmore⟩ := ih hnext
    exact ⟨closed ++ more, by rw [hmore, heffect.classes_eq, List.append_assoc]⟩

/-- What becomes of the class that is open before a run of lines. It keeps its place
behind the classes closed before it, and it is closed, if at all, by a line at
whose end the depth is back at the one around the class. -/
theorem run_openClass {lines : List Text} {run : List LogicalLine} {r r' : Reading} {c : OpenClass}
    (hrun : run.foldlM (step lines) r = .ok r') (hopen : r.openClass = some c) :
    ∃ d, r'.finish.classes[r.model.classes.length]? = some d ∧ d.name = c.decl.name ∧
      d.startLine = c.decl.startLine ∧
      (d.endLine = c.decl.endLine ∨
        ∃ passed line rest, run = passed ++ line :: rest ∧
          d.endLine = some (max line.last c.decl.startLine) ∧
          r.depth + ((passed ++ [line]).map LogicalLine.braceDelta).sum ≤ c.depth) := by
  induction run generalizing r c with
  | nil =>
    obtain rfl := Except.ok.inj hrun
    exact ⟨c.decl, by simp [finish, hopen], rfl, rfl, Or.inl rfl⟩
  | cons line rest ih =>
    obtain ⟨next, hstep, hnext⟩ := run_cons.mp hrun
    obtain ⟨closed, heffect⟩ := step_effect hstep
    have hclasses := heffect.classes_eq
    have hdepth := heffect.depth_eq
    have hmove := heffect.move
    rw [hopen] at hmove
    generalize hafter : next.openClass = after at hmove
    cases hmove with
    | stays _ c' hsame =>
      obtain ⟨d, hd, hname, hstart, hend⟩ := ih hnext hafter
      have hspan : c'.decl.startLine = c.decl.startLine ∧ c'.decl.endLine = c.decl.endLine :=
        Prod.mk.inj hsame.span_eq
      rw [hclasses, List.append_nil] at hd
      refine ⟨d, hd, hname.trans hsame.name_eq, hstart.trans hspan.1, ?_⟩
      rcases hend with hsameEnd | ⟨passed, last, after, rfl, hlast, hback⟩
      · exact Or.inl (hsameEnd.trans hspan.2)
      · refine Or.inr ⟨line :: passed, last, after, rfl, hspan.1 ▸ hlast, ?_⟩
        rw [hsame.depth_eq, hdepth] at hback
        simp only [List.cons_append, List.map_cons, List.sum_cons]
        omega
    | closes _ c' hsame hback =>
      -- From here on the class is one of those that are closed, and they are only added to.
      obtain ⟨more, hmore⟩ := run_classes hnext
      have hspan : c'.decl.startLine = c.decl.startLine := congrArg Prod.fst hsame.span_eq
      refine ⟨c'.decl.close line.last, ?_, hsame.name_eq, hspan,
        Or.inr ⟨[], line, rest, rfl, ?_, ?_⟩⟩
      · simp [finish, hmore, hclasses]
      · rw [← hspan]
        rfl
      · rw [hdepth] at hback
        simpa using hback

end Reading

/-- The function was recorded by the given logical line, after the lines passed before
it had led to the given state. -/
structure RecordedBy (lines : List Text) (f : FunctionDecl) (passed : List LogicalLine)
    (line : LogicalLine) (rest : List LogicalLine) (before : Reading) : Prop where
  lines_eq : LogicalLine.ofLines lines = passed ++ line :: rest
  passed_run : passed.foldlM (Reading.step lines) {} = .ok before
  step_new : ∃ after, Reading.step lines before line = .ok after ∧
    after.model.functions = before.model.functions ++ [f]

/-- The class `c` of the model is the one that was open when the function `f` was
recorded: it stands right behind the classes that had been closed by then. -/
def RecordedIn (lines : List Text) (model : SourceModel) (f : FunctionDecl) (c : ClassDecl) :
    Prop :=
  ∃ passed line rest before, RecordedBy lines f passed line rest before ∧
    before.openClass.isSome ∧ model.classes[before.model.classes.length]? = some c

theorem RecordedBy.facts {lines : List Text} {f : FunctionDecl} {passed rest : List LogicalLine}
    {line : LogicalLine} {before : Reading} (h : RecordedBy lines f passed line rest before) :
    Reading.FunctionFacts before line f := by
  obtain ⟨after, hstep, hnew⟩ := h.step_new
  obtain ⟨closed, heffect⟩ := Reading.step_effect hstep
  obtain ⟨function, hfunctions, hfacts⟩ := heffect.functions
  rw [hnew] at hfunctions
  have hone : [f] = function.toList := List.append_cancel_left hfunctions
  exact hfacts f (Option.mem_toList.mp (by simp [← hone]))

theorem RecordedBy.rest_run {lines : List Text} {f : FunctionDecl} {passed rest : List LogicalLine}
    {line : LogicalLine} {before r : Reading} (h : RecordedBy lines f passed line rest before)
    (hrun : (LogicalLine.ofLines lines).foldlM (Reading.step lines) {} = .ok r) :
    (line :: rest).foldlM (Reading.step lines) before = .ok r := by
  rw [h.lines_eq] at hrun
  obtain ⟨next, hpassed, hrest⟩ := Reading.run_append.mp hrun
  rw [h.passed_run, Except.ok.injEq] at hpassed
  exact hpassed ▸ hrest

theorem exists_recordedBy {lines : List Text} {passed left : List LogicalLine} {before r : Reading}
    (hlines : LogicalLine.ofLines lines = passed ++ left)
    (hpassed : passed.foldlM (Reading.step lines) {} = .ok before)
    (hleft : left.foldlM (Reading.step lines) before = .ok r) {f : FunctionDecl}
    (hf : f ∈ r.model.functions) :
    f ∈ before.model.functions ∨
      ∃ passed line rest before, RecordedBy lines f passed line rest before := by
  induction left generalizing passed before with
  | nil =>
    obtain rfl := Except.ok.inj hleft
    exact Or.inl hf
  | cons line rest ih =>
    obtain ⟨next, hstep, hnext⟩ := Reading.run_cons.mp hleft
    have hpassed' : (passed ++ [line]).foldlM (Reading.step lines) {} = .ok next :=
      Reading.run_append.mpr ⟨before, hpassed, Reading.run_cons.mpr ⟨next, hstep, rfl⟩⟩
    rcases ih (by rw [hlines, List.append_cons]) hpassed' hnext with hearlier | hlater
    · obtain ⟨closed, heffect⟩ := Reading.step_effect hstep
      obtain ⟨function, hfunctions, -⟩ := heffect.functions
      rw [hfunctions] at hearlier
      rcases List.mem_append.mp hearlier with hold | hnew
      · exact Or.inl hold
      · rw [Option.mem_toList.mp hnew] at hfunctions
        exact Or.inr ⟨passed, line, rest, before, hlines, hpassed, next, hstep, hfunctions⟩
    · exact Or.inr hlater

/-- Every method has a class that was open when it was recorded, and is named for it. -/
theorem exists_recordedIn {lines : List Text} {r : Reading}
    (hrun : (LogicalLine.ofLines lines).foldlM (Reading.step lines) {} = .ok r)
    {f : FunctionDecl} (hf : f ∈ r.finish.functions) (hmethod : f.isMethod = true) :
    ∃ c, RecordedIn lines r.finish f c ∧ f.className = some c.name := by
  obtain ⟨owner, howner⟩ := Option.isSome_iff_exists.mp hmethod
  have hlines : LogicalLine.ofLines lines = [] ++ LogicalLine.ofLines lines := rfl
  rcases exists_recordedBy hlines rfl hrun hf with
    hnone | ⟨passed, line, rest, before, hrecorded⟩
  · simp at hnone
  obtain ⟨o, hopen, hname, -⟩ := hrecorded.facts.owned owner howner
  obtain ⟨d, hd, hdname, -⟩ := Reading.run_openClass (hrecorded.rest_run hrun) hopen
  refine ⟨d, ⟨passed, line, rest, before, hrecorded, by simp [hopen], hd⟩, ?_⟩
  rw [howner, hdname, hname]

/-- Where the braces from a line on run below zero, the scan from that line is over. -/
theorem scanLines_ends_of_cuts (start : Nat) {number : Nat} {raw : List Text}
    {passed rest : List LogicalLine} {line : LogicalLine}
    (hcuts : LogicalLine.Cuts number {} raw (passed ++ line :: rest))
    (hearly : Body.closesEarly 0 (codeLines raw).flatten = false)
    (hnegative : ((passed ++ [line]).map LogicalLine.braceDelta).sum < 0) :
    ∃ last, (Body.scanLines start {} {} raw).2.2 = some last ∧
      last + number ≤ start + line.last := by
  rw [List.append_cons] at hcuts
  obtain ⟨taken, left, rfl, htaken, -⟩ := hcuts.split
  have hfits : ({} : Body.Counters).Fits (({} : Scrubber).codes (taken ++ left)).flatten :=
    ⟨rfl, hearly⟩
  have hsum : ({} : Body.Counters).depth +
      ((({} : Scrubber).codes taken).map Code.braceDelta).sum < 0 := by
    rw [← htaken.sum_braceDelta]
    simpa using hnegative
  obtain ⟨last, hlast, hlt⟩ := Body.scanLines_ends start hfits hsum
  have hstop := htaken.tiles.last_eq
  exact ⟨last, hlast, by omega⟩

/-- A method whose code does not close a brace early has been scanned to its end before
its class is closed. -/
theorem RecordedIn.scan_ends {lines : List Text} {r : Reading} {f : FunctionDecl} {c : ClassDecl}
    (h : RecordedIn lines r.finish f c)
    (hrun : (LogicalLine.ofLines lines).foldlM (Reading.step lines) {} = .ok r)
    (hmethod : f.isMethod = true)
    (hearly : Body.closesEarly 0 (codeLines (lines.drop (f.line - 1))).flatten = false)
    {last : Nat} (hend : c.endLine = some last) :
    c.startLine ≤ f.line ∧ 1 ≤ f.line ∧
      ∃ stop, (Body.scanLines (f.line - 1) {} {} (lines.drop (f.line - 1))).2.2 = some stop ∧
        stop + 1 ≤ last := by
  obtain ⟨owner, howner⟩ := Option.isSome_iff_exists.mp hmethod
  obtain ⟨passed, line, rest, before, hrecorded, -, hplace⟩ := h
  have hline := hrecorded.facts.line_eq
  obtain ⟨o, hopen, -, hdepth⟩ := hrecorded.facts.owned owner howner
  obtain ⟨hpos, hcuts⟩ :=
    LogicalLine.cuts_drop_of_plain hrecorded.lines_eq hrecorded.facts.plain
  have hbefore := Reading.readUpTo_before hrecorded.lines_eq hpos hrecorded.passed_run
  have hbound := (hbefore.wellFormed.classes.within o.decl (by simp [Reading.finish, hopen])).2.1
  obtain ⟨d, hd, -, hstart, hclosed⟩ := Reading.run_openClass (hrecorded.rest_run hrun) hopen
  rw [hplace, Option.some.injEq] at hd
  subst hd
  -- The class has an end now and had none before the line, so a line has closed it.
  rw [hend, hbefore.classes.endless o hopen] at hclosed
  rcases hclosed with habsurd | ⟨before', closing, after, hsplit, hlast, hback⟩
  · simp at habsurd
  rw [Option.some.injEq] at hlast
  rw [hsplit, ← hline] at hcuts
  obtain ⟨stop, hstop, hle⟩ := scanLines_ends_of_cuts (f.line - 1) hcuts hearly (by omega)
  exact ⟨by omega, by omega, stop, hstop, by omega⟩

theorem methodLength_le_span (lines : List Text) {declaration : Nat} (h : 1 ≤ declaration) :
    Check.methodLength lines declaration ≤ (Body.scan lines (declaration - 1)).span := by
  obtain ⟨start, rfl⟩ := Nat.exists_eq_add_of_le' h
  calc
    Check.methodLength lines (start + 1) ≤
        ((lines.drop start).take (Body.scan lines start).span).length := List.countP_le_length
    _ ≤ (Body.scan lines start).span := List.length_take_le _ _

/-- The parser and the scan for the end of a body agree on where a method ends. If the
code behind a method's declaration opens a brace or comes to the end of the
declaration before it closes one, then the scan ends no later than the class of
the method, the method is not longer than the class, and a scan that runs into
the end of the file shows that the class has no end. -/
theorem method_ends_within_class {lines : List Text} {model : SourceModel}
    (h : ofLines lines = .ok model) {f : FunctionDecl} (hf : f ∈ model.functions)
    (hmethod : f.isMethod = true) :
    (∃ c, RecordedIn lines model f c ∧ f.className = some c.name) ∧
      ∀ c, RecordedIn lines model f c →
        Body.closesEarly 0 (codeLines (lines.drop (f.line - 1))).flatten = false →
          (∀ last, c.endLine = some last → (Body.scan lines (f.line - 1)).last + 1 ≤ last) ∧
          (∀ count, c.lineCount = some count → Check.methodLength lines f.line ≤ count) ∧
          ((Body.scanLines (f.line - 1) {} {} (lines.drop (f.line - 1))).2.2 = none →
            c.endLine = none) := by
  obtain ⟨r, hrun, rfl⟩ := ofLines_eq_ok_iff.mp h
  refine ⟨exists_recordedIn hrun hf hmethod, ?_⟩
  intro c hrecorded hearly
  refine ⟨?_, ?_, ?_⟩
  · intro last hend
    obtain ⟨-, -, stop, hstop, hle⟩ := hrecorded.scan_ends hrun hmethod hearly hend
    rw [Body.scan_last hstop]
    exact hle
  · intro count hcount
    obtain ⟨last, hend, rfl⟩ := Option.map_eq_some_iff.mp hcount
    obtain ⟨hstart, hpos, stop, hstop, hle⟩ := hrecorded.scan_ends hrun hmethod hearly hend
    have hlength := methodLength_le_span lines hpos
    rw [Body.span, Body.scan_last hstop, Body.scan_start] at hlength
    omega
  · intro hnone
    cases hend : c.endLine with
    | none => rfl
    | some last =>
      obtain ⟨-, -, stop, hstop, -⟩ := hrecorded.scan_ends hrun hmethod hearly hend
      rw [hnone] at hstop
      simp at hstop

/-- A method whose signature takes two lines and whose body holds a brace in a string. Its
class is closed on the line on which it ends. -/
def bracedMethod : List Text :=
  ["class A \x7b", "  function f(", "    int $n) \x7b", "    return '\x7d';", "  \x7d \x7d",
    "// end"].map String.toList

theorem method_ends_within_class_braced :
    ∃ model f c, ofLines bracedMethod = .ok model ∧ f ∈ model.functions ∧
      RecordedIn bracedMethod model f c ∧ c.endLine = some 5 ∧
      (Body.scan bracedMethod (f.line - 1)).last + 1 ≤ 5 ∧
      (Body.scan bracedMethod (f.line - 1)).last = 4 ∧
      Check.methodLength bracedMethod f.line ≤ 5 := by
  have hread : (fun m : SourceModel =>
      (m.classes.map ClassDecl.span, m.functions.map fun f => (f.line, f.isMethod))) <$>
        ofLines bracedMethod = .ok ([(1, some 5)], [(2, true)]) := by
    decide +kernel
  obtain ⟨model, hmodel, hfacts⟩ := map_eq_ok_iff.mp hread
  obtain ⟨hclasses, hfunctions⟩ := Prod.mk.inj hfacts
  obtain ⟨f, hf, hline⟩ : ∃ f ∈ model.functions, (f.line, f.isMethod) = (2, true) := by
    apply List.mem_map.mp
    simp [hfunctions]
  obtain ⟨hline, hmethod⟩ := Prod.mk.inj hline
  obtain ⟨⟨c, hrecorded, -⟩, hall⟩ := method_ends_within_class hmodel hf hmethod
  have hearly :
      Body.closesEarly 0 (codeLines (bracedMethod.drop (f.line - 1))).flatten = false := by
    rw [hline]
    decide +kernel
  obtain ⟨hscan, hlength, -⟩ := hall c hrecorded hearly
  have hspan : c.span = (1, some 5) := by
    obtain ⟨_, _, _, before, -, -, hplace⟩ := hrecorded
    have hmem : c.span ∈ model.classes.map ClassDecl.span :=
      List.mem_map_of_mem (List.mem_of_getElem? hplace)
    simpa [hclasses] using hmem
  have hend : c.endLine = some 5 := congrArg Prod.snd hspan
  have hstart : c.startLine = 1 := congrArg Prod.fst hspan
  have hlast : (Body.scan bracedMethod (f.line - 1)).last = 4 := by
    rw [hline]
    decide +kernel
  exact ⟨model, f, c, hmodel, hf, hrecorded, hend, hscan 5 hend, hlast,
    hlength 5 (by simp [ClassDecl.lineCount, hend, hstart])⟩

end PhpLint.SourceModel
