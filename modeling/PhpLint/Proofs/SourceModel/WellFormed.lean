import PhpLint.Proofs.LogicalLine.Tiling

/-!
The model of a file is well formed. Classes stand one behind the other, everything
recorded has a line of the file, and what belongs to a class stands inside it. The
invariant is that the model recorded so far is well formed for the lines read so
far; it survives every logical line, whatever the text and the brace depth.
-/

namespace PhpLint

namespace ClassDecl

/-- A line lies inside the class; a class without an end goes on for ever. -/
def Spans (c : ClassDecl) (line : Nat) : Prop :=
  c.startLine ≤ line ∧ ∀ last, c.endLine = some last → line ≤ last

/-- One class is over before the other begins. -/
def Precedes (c d : ClassDecl) : Prop := ∃ last, c.endLine = some last ∧ last < d.startLine

/-- The class lies within the first lines of a file, and does not end before it starts. -/
def Within (count : Nat) (c : ClassDecl) : Prop :=
  1 ≤ c.startLine ∧ c.startLine ≤ count ∧
    ∀ last, c.endLine = some last → c.startLine ≤ last ∧ last ≤ count

/-- Classes of a file in source order. Each precedes all that follow it, so only the
last of them may be without an end. -/
structure Ordered (count : Nat) (classes : List ClassDecl) : Prop where
  precede : classes.Pairwise Precedes
  within : ∀ c ∈ classes, c.Within count

theorem Within.mono {c : ClassDecl} {count count' : Nat} (h : c.Within count)
    (hle : count ≤ count') : c.Within count' := by
  obtain ⟨hpos, hstart, hend⟩ := h
  refine ⟨hpos, by omega, ?_⟩
  intro last hlast
  have := hend last hlast
  omega

theorem Ordered.append {classes : List ClassDecl} {count count' : Nat} {d : ClassDecl}
    (h : Ordered count classes) (hended : ∀ c ∈ classes, ∃ last, c.endLine = some last)
    (hstart : count < d.startLine) (hd : d.Within count') (hle : count ≤ count') :
    Ordered count' (classes ++ [d]) := by
  constructor
  · rw [List.pairwise_append]
    refine ⟨h.precede, by simp, ?_⟩
    intro c hc d' hd'
    obtain rfl := List.mem_singleton.mp hd'
    obtain ⟨last, hlast⟩ := hended c hc
    have hbound := (h.within c hc).2.2 last hlast
    exact ⟨last, hlast, by omega⟩
  · intro c hc
    rcases List.mem_append.mp hc with hold | hnew
    · exact (h.within c hold).mono hle
    · obtain rfl := List.mem_singleton.mp hnew
      exact hd

theorem Ordered.replace {classes : List ClassDecl} {count count' : Nat} {c d : ClassDecl}
    (h : Ordered count (classes ++ [c])) (hstart : d.startLine = c.startLine)
    (hd : d.Within count') (hle : count ≤ count') : Ordered count' (classes ++ [d]) := by
  have hsplit := List.pairwise_append.mp h.precede
  constructor
  · rw [List.pairwise_append]
    refine ⟨hsplit.1, by simp, ?_⟩
    intro b hb d' hd'
    obtain rfl := List.mem_singleton.mp hd'
    obtain ⟨last, hlast, hlt⟩ := hsplit.2.2 b hb c (by simp)
    exact ⟨last, hlast, by omega⟩
  · intro b hb
    rcases List.mem_append.mp hb with hold | hnew
    · exact (h.within b (List.mem_append_left _ hold)).mono hle
    · obtain rfl := List.mem_singleton.mp hnew
      exact hd

/-- Every class of one list has a counterpart of its name in another, which spans
what it spans among the first lines of the file. -/
def CoveredBy (count : Nat) (classes classes' : List ClassDecl) : Prop :=
  ∀ c ∈ classes, ∃ c' ∈ classes', c'.name = c.name ∧ ∀ line ≤ count, c.Spans line → c'.Spans line

theorem Ordered.mono {classes : List ClassDecl} {count count' : Nat} (h : Ordered count classes)
    (hle : count ≤ count') : Ordered count' classes :=
  ⟨h.precede, fun c hc => (h.within c hc).mono hle⟩

theorem within_of_endless {c : ClassDecl} {count : Nat} (hpos : 1 ≤ c.startLine)
    (hstart : c.startLine ≤ count) (hend : c.endLine = none) : c.Within count := by
  refine ⟨hpos, hstart, ?_⟩
  simp [hend]

theorem within_close {c : ClassDecl} {last : Nat} (hpos : 1 ≤ c.startLine)
    (hstart : c.startLine ≤ last) : (c.close last).Within last := by
  refine ⟨hpos, hstart, ?_⟩
  intro line hline
  have hmax : max last c.startLine = line := Option.some.inj hline
  have hstart' : (c.close last).startLine = c.startLine := rfl
  omega

theorem coveredBy_append (count : Nat) (classes more : List ClassDecl) :
    CoveredBy count classes (classes ++ more) :=
  fun c hc => ⟨c, List.mem_append_left _ hc, rfl, fun _ _ h => h⟩

theorem coveredBy_replace {count : Nat} (classes : List ClassDecl) {c d : ClassDecl}
    (hname : d.name = c.name) (hstart : d.startLine = c.startLine)
    (hend : ∀ last, d.endLine = some last → count ≤ last) :
    CoveredBy count (classes ++ [c]) (classes ++ [d]) := by
  intro b hb
  rcases List.mem_append.mp hb with hold | hlast
  · exact ⟨b, List.mem_append_left _ hold, rfl, fun _ _ h => h⟩
  · obtain rfl := List.mem_singleton.mp hlast
    refine ⟨d, by simp, hname, ?_⟩
    intro line hline hspans
    refine ⟨hstart ▸ hspans.1, ?_⟩
    intro last hlast
    have := hend last hlast
    omega

end ClassDecl

namespace SourceModel

/-- The classes of a reading after some lines: those that are closed, and the open
one, which has no end yet. -/
structure ClassesRead (count : Nat) (done : List ClassDecl) (current : Option OpenClass) :
    Prop where
  ordered : ClassDecl.Ordered count (done ++ (current.map OpenClass.decl).toList)
  ended : ∀ c ∈ done, ∃ last, c.endLine = some last
  endless : ∀ c, current = some c → c.decl.endLine = none

theorem ClassesRead.of_open {count : Nat} {done : List ClassDecl} {c : OpenClass}
    (hordered : ClassDecl.Ordered count (done ++ [c.decl]))
    (hended : ∀ d ∈ done, ∃ last, d.endLine = some last) (hend : c.decl.endLine = none) :
    ClassesRead count done (some c) := by
  refine ⟨hordered, hended, ?_⟩
  rintro d hd
  obtain rfl := Option.some.inj hd
  exact hend

theorem ClassesRead.of_closed {last : Nat} {done : List ClassDecl} {d : ClassDecl}
    (hordered : ClassDecl.Ordered last (done ++ [d.close last]))
    (hended : ∀ c ∈ done, ∃ last, c.endLine = some last) :
    ClassesRead last (done ++ [d.close last]) none := by
  refine ⟨by simpa using hordered, ?_, by simp⟩
  intro c hc
  rcases List.mem_append.mp hc with hold | hnew
  · exact hended c hold
  · obtain rfl := List.mem_singleton.mp hnew
    exact ⟨_, rfl⟩

/-- What a line does to the open class keeps the classes in order, and every class
keeps the lines that it spans. -/
theorem ClassMove.classesRead {line : LogicalLine} {depth : Int} {before after : Option OpenClass}
    {closed done : List ClassDecl} {count : Nat} (hmove : ClassMove line depth before after closed)
    (h : ClassesRead count done before) (hfirst : line.first = count + 1)
    (hle : line.first ≤ line.last) :
    ClassesRead line.last (done ++ closed) after ∧
      ClassDecl.CoveredBy line.last (done ++ (before.map OpenClass.decl).toList)
        (done ++ closed ++ (after.map OpenClass.decl).toList) := by
  have hcount : count ≤ line.last := by omega
  have hordered := h.ordered
  cases hmove with
  | idle =>
    refine ⟨⟨?_, by simpa using h.ended, by simp⟩, ?_⟩
    · simpa using hordered.mono hcount
    · simpa using ClassDecl.coveredBy_append line.last done []
  | opens c hspan =>
    have hstart : c.decl.startLine = line.first := congrArg Prod.fst hspan
    have hend : c.decl.endLine = none := congrArg Prod.snd hspan
    have hwithin := ClassDecl.within_of_endless (by omega) (hstart ▸ hle) hend
    simp only [Option.map_none, Option.toList_none, List.append_nil] at hordered ⊢
    exact ⟨.of_open (hordered.append h.ended (by omega) hwithin hcount) h.ended hend,
      ClassDecl.coveredBy_append line.last done [c.decl]⟩
  | opensAndCloses c hspan =>
    have hstart : c.decl.startLine = line.first := congrArg Prod.fst hspan
    have hwithin : (c.decl.close line.last).Within line.last :=
      ClassDecl.within_close (by omega) (hstart ▸ hle)
    have hbehind : count < (c.decl.close line.last).startLine := by
      change count < c.decl.startLine
      omega
    simp only [Option.map_none, Option.toList_none, List.append_nil] at hordered ⊢
    exact ⟨.of_closed (hordered.append h.ended hbehind hwithin hcount) h.ended,
      ClassDecl.coveredBy_append line.last done [c.decl.close line.last]⟩
  | stays c c' hsame =>
    have hstart : c'.decl.startLine = c.decl.startLine := congrArg Prod.fst hsame.span_eq
    have hend : c'.decl.endLine = none :=
      (congrArg Prod.snd hsame.span_eq).trans (h.endless c rfl)
    have hold := hordered.within c.decl (by simp)
    have hwithin := ClassDecl.within_of_endless (hstart ▸ hold.1)
      (hstart ▸ Nat.le_trans hold.2.1 hcount) hend
    rw [List.append_nil]
    exact ⟨.of_open (hordered.replace hstart hwithin hcount) h.ended hend,
      ClassDecl.coveredBy_replace done hsame.name_eq hstart (by simp [hend])⟩
  | closes c c' hsame hdepth =>
    have hstart : c'.decl.startLine = c.decl.startLine := congrArg Prod.fst hsame.span_eq
    have hold := hordered.within c.decl (by simp)
    have hwithin : (c'.decl.close line.last).Within line.last :=
      ClassDecl.within_close (hstart ▸ hold.1) (hstart ▸ Nat.le_trans hold.2.1 hcount)
    -- A class that a line closes still spans the whole of that line.
    have hend : ∀ last, (c'.decl.close line.last).endLine = some last → line.last ≤ last := by
      intro last hlast
      have hmax : max line.last c'.decl.startLine = last := Option.some.inj hlast
      omega
    have hname : (c'.decl.close line.last).name = c.decl.name := hsame.name_eq
    have hclosed : (c'.decl.close line.last).startLine = c.decl.startLine := hstart
    simp only [Option.map_none, Option.toList_none, List.append_nil]
    exact ⟨.of_closed (hordered.replace hclosed hwithin hcount) h.ended,
      ClassDecl.coveredBy_replace done hname hclosed hend⟩

/-- Line numbers of a file, or of its first lines, in an order. -/
structure Numbered (order : Nat → Nat → Prop) (count : Nat) (numbers : List Nat) : Prop where
  bounded : ∀ n ∈ numbers, 1 ≤ n ∧ n ≤ count
  ordered : numbers.Pairwise order

theorem Numbered.append {order : Nat → Nat → Prop} {count first last : Nat} {old new : List Nat}
    (h : Numbered order count old) (horder : ∀ a b, a < b → order a b)
    (hnew : ∀ n ∈ new, n = first) (hpairs : new.Pairwise order)
    (hfirst : first = count + 1) (hle : first ≤ last) : Numbered order last (old ++ new) := by
  constructor
  · intro n hn
    rcases List.mem_append.mp hn with hold | hlater
    · have := h.bounded n hold
      omega
    · have := hnew n hlater
      omega
  · rw [List.pairwise_append]
    refine ⟨h.ordered, hpairs, ?_⟩
    intro a ha b hb
    have hbound := h.bounded a ha
    have hline := hnew b hb
    exact horder a b (by omega)

theorem Numbered.append_le {count first last : Nat} {old new : List Nat}
    (h : Numbered (· ≤ ·) count old) (hnew : ∀ n ∈ new, n = first) (hfirst : first = count + 1)
    (hle : first ≤ last) : Numbered (· ≤ ·) last (old ++ new) := by
  have hpairs : new.Pairwise (· ≤ ·) := by
    apply List.pairwise_of_forall_mem_list
    intro a ha b hb
    rw [hnew a ha, hnew b hb]
  exact h.append (fun _ _ hlt => Nat.le_of_lt hlt) hnew hpairs hfirst hle

/-- A model of the first lines of a file is well formed. -/
structure WellFormed (count : Nat) (m : SourceModel) : Prop where
  classes : ClassDecl.Ordered count m.classes
  imports : Numbered (· ≤ ·) count (m.imports.map Import.line)
  properties : Numbered (· ≤ ·) count (m.properties.map Property.line)
  functions : Numbered (· < ·) count (m.functions.map FunctionDecl.line)
  /-- A property stands in a class of the name that it gives. -/
  properties_owned : ∀ p ∈ m.properties, ∃ c ∈ m.classes, c.name = p.className ∧ c.Spans p.line
  /-- So does a method. -/
  methods_owned : ∀ f ∈ m.functions, ∀ owner, f.className = some owner →
    ∃ c ∈ m.classes, c.name = owner ∧ c.Spans f.line
  parameters_keyed : ∀ f ∈ m.functions, FunctionDecl.ParametersKeyed f.parameters

namespace Reading

/-- The invariant of the reader: what is recorded is a well formed model of the lines
read so far. -/
structure ReadUpTo (count : Nat) (r : Reading) : Prop where
  wellFormed : WellFormed count r.finish
  classes : ClassesRead count r.model.classes r.openClass

theorem readUpTo_start : ReadUpTo 0 {} where
  wellFormed :=
    { classes := ⟨.nil, by simp [finish]⟩
      imports := ⟨by simp [finish], .nil⟩
      properties := ⟨by simp [finish], .nil⟩
      functions := ⟨by simp [finish], .nil⟩
      properties_owned := by simp [finish]
      methods_owned := by simp [finish]
      parameters_keyed := by simp [finish] }
  classes := ⟨⟨.nil, by simp⟩, by simp, by simp⟩

theorem ReadUpTo.openClass_spans {count : Nat} {r : Reading} (h : ReadUpTo count r) {c : OpenClass}
    (hopen : r.openClass = some c) {owner : Text} (hname : c.decl.name = owner) {line : Nat}
    (hline : count ≤ line) : ∃ d ∈ r.finish.classes, d.name = owner ∧ d.Spans line := by
  have hmem : c.decl ∈ r.finish.classes := by simp [finish, hopen]
  have hwithin := h.wellFormed.classes.within c.decl hmem
  refine ⟨c.decl, hmem, hname, Nat.le_trans hwithin.2.1 hline, ?_⟩
  simp [h.classes.endless c hopen]

/-- One logical line keeps the model well formed. -/
theorem readUpTo_step {lines : List Text} {r r' : Reading} {line : LogicalLine} {count : Nat}
    (h : ReadUpTo count r) (hstep : step lines r line = .ok r') (hfirst : line.first = count + 1)
    (hle : line.first ≤ line.last) : ReadUpTo line.last r' := by
  obtain ⟨closed, heffect⟩ := step_effect hstep
  obtain ⟨hclasses, hcover⟩ := heffect.move.classesRead h.classes hfirst hle
  rw [← heffect.classes_eq] at hclasses hcover
  -- What a class spanned before the line it spans after it, under the same name.
  have hkept {owner : Text} {n : Nat} (hn : n ≤ line.last)
      (howned : ∃ c ∈ r.finish.classes, c.name = owner ∧ c.Spans n) :
      ∃ c ∈ r'.finish.classes, c.name = owner ∧ c.Spans n := by
    obtain ⟨c, hc, hname, hspans⟩ := howned
    obtain ⟨c', hc', hname', hspans'⟩ := hcover c hc
    exact ⟨c', hc', hname'.trans hname, hspans' n hn hspans⟩
  obtain ⟨imports, himports, himportLines⟩ := heffect.imports
  obtain ⟨properties, hproperties, hpropertyFacts⟩ := heffect.properties
  obtain ⟨function, hfunctions, hfunctionFacts⟩ := heffect.functions
  have himportNumbers := h.wellFormed.imports
  have hpropertyNumbers := h.wellFormed.properties
  have hfunctionNumbers := h.wellFormed.functions
  simp only [finish] at himportNumbers hpropertyNumbers hfunctionNumbers
  refine ⟨⟨hclasses.ordered, ?_, ?_, ?_, ?_, ?_, ?_⟩, hclasses⟩
  · simp only [finish, himports, List.map_append]
    refine himportNumbers.append_le ?_ hfirst hle
    simpa using himportLines
  · simp only [finish, hproperties, List.map_append]
    refine hpropertyNumbers.append_le ?_ hfirst hle
    intro n hn
    obtain ⟨p, hp, rfl⟩ := List.mem_map.mp hn
    exact (hpropertyFacts p hp).1
  · simp only [finish, hfunctions, List.map_append]
    refine hfunctionNumbers.append (fun _ _ hlt => hlt) ?_ ?_ hfirst hle
    · intro n hn
      obtain ⟨f, hf, rfl⟩ := List.mem_map.mp hn
      exact (hfunctionFacts f (Option.mem_toList.mp hf)).line_eq
    · cases function <;> simp
  · intro p hp
    change p ∈ r'.model.properties at hp
    rw [hproperties] at hp
    rcases List.mem_append.mp hp with hold | hnew
    · have hbound := hpropertyNumbers.bounded p.line (List.mem_map_of_mem hold)
      exact hkept (by omega) (h.wellFormed.properties_owned p hold)
    · obtain ⟨hline, c, hopen, hname⟩ := hpropertyFacts p hnew
      exact hkept (by omega) (h.openClass_spans hopen hname (by omega))
  · intro f hf owner howner
    change f ∈ r'.model.functions at hf
    rw [hfunctions] at hf
    rcases List.mem_append.mp hf with hold | hnew
    · have hbound := hfunctionNumbers.bounded f.line (List.mem_map_of_mem hold)
      exact hkept (by omega) (h.wellFormed.methods_owned f hold owner howner)
    · have hfacts := hfunctionFacts f (Option.mem_toList.mp hnew)
      have hline := hfacts.line_eq
      obtain ⟨c, hopen, hname, -⟩ := hfacts.owned owner howner
      exact hkept (by omega) (h.openClass_spans hopen hname (by omega))
  · intro f hf
    change f ∈ r'.model.functions at hf
    rw [hfunctions] at hf
    rcases List.mem_append.mp hf with hold | hnew
    · exact h.wellFormed.parameters_keyed f hold
    · exact (hfunctionFacts f (Option.mem_toList.mp hnew)).keyed

theorem readUpTo_run {lines : List Text} {run : List LogicalLine} {r r' : Reading}
    {start stop : Nat} (h : ReadUpTo start r)
    (htiles : LogicalLine.Tiles (start + 1) run (stop + 1))
    (hrun : run.foldlM (step lines) r = .ok r') : ReadUpTo stop r' := by
  induction run generalizing r start with
  | nil =>
    obtain rfl := Except.ok.inj hrun
    obtain rfl := Nat.succ.inj htiles
    exact h
  | cons line rest ih =>
    obtain ⟨hfirst, hle, hrest⟩ := htiles
    obtain ⟨next, hstep, hnext⟩ := run_cons.mp hrun
    exact ih (readUpTo_step h hstep hfirst hle) hrest hnext

theorem readUpTo_before {lines : List Text} {passed rest : List LogicalLine} {line : LogicalLine}
    {r : Reading} (hlines : LogicalLine.ofLines lines = passed ++ line :: rest)
    (hfirst : 1 ≤ line.first) (hrun : passed.foldlM (step lines) {} = .ok r) :
    ReadUpTo (line.first - 1) r := by
  have htiles := (LogicalLine.cuts_ofLines lines).tiles
  rw [hlines] at htiles
  have hpassed := htiles.before
  rw [← Nat.sub_add_cancel hfirst] at hpassed
  exact readUpTo_run readUpTo_start hpassed hrun

theorem readUpTo_ofLines {lines : List Text} {r : Reading}
    (hrun : (LogicalLine.ofLines lines).foldlM (step lines) {} = .ok r) :
    ReadUpTo lines.length r := by
  have htiles := (LogicalLine.cuts_ofLines lines).tiles
  rw [Nat.add_comm] at htiles
  exact readUpTo_run readUpTo_start htiles hrun

end Reading

/-- The model of every file that can be read is well formed. -/
theorem ofLines_wellFormed {lines : List Text} {model : SourceModel}
    (h : ofLines lines = .ok model) : WellFormed lines.length model := by
  obtain ⟨r, hrun, rfl⟩ := ofLines_eq_ok_iff.mp h
  exact (Reading.readUpTo_ofLines hrun).wellFormed

/-- One class is closed and one is left open; both have members. -/
def openEnded : List Text :=
  ["class A \x7b", "  public $x, $y;", "  function f(", "    int $n) \x7b\x7d", "\x7d",
    "use A\\B;", "trait T", "\x7b", "  function g() \x7b"].map String.toList

theorem ofLines_wellFormed_openEnded :
    ∃ model, ofLines openEnded = .ok model ∧
      model.classes.map ClassDecl.span = [(1, some 5), (7, none)] ∧
      model.functions.map FunctionDecl.line = [3, 9] ∧ WellFormed 9 model := by
  have hread : (fun m : SourceModel =>
      (m.classes.map ClassDecl.span, m.functions.map FunctionDecl.line)) <$> ofLines openEnded =
        .ok ([(1, some 5), (7, none)], [3, 9]) := by
    decide +kernel
  obtain ⟨model, hmodel, hfacts⟩ := map_eq_ok_iff.mp hread
  exact ⟨model, hmodel, congrArg Prod.fst hfacts, congrArg Prod.snd hfacts,
    ofLines_wellFormed hmodel⟩

end SourceModel

end PhpLint
