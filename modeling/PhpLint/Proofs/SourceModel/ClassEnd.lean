import Mathlib.Order.Bounds.Basic
import PhpLint.Proofs.SourceModel.WellFormed

/-!
Where a class ends. Behind every logical line the brace depth is a sum over the lines so
far. A class ends on the first line from its declaration on behind which that depth is
back at the one in front of the declaration, as long as a brace has been opened: by the
declaration itself, or by rising above that depth in between. The invariant says so of the
classes that are closed already, and of the open one that it has not happened yet.
-/

namespace PhpLint

namespace LogicalLine

/-- The brace depth behind the first lines of a run. -/
def depthAfter (run : List LogicalLine) (count : Nat) : Int :=
  ((run.take count).map braceDelta).sum

/-- In front of the line at the index `stop`, a brace has been opened since the declaration
on the line at the index `start`: its code has one, or a line in between has led deeper. -/
def BodyBegun (run : List LogicalLine) (start stop : Nat) : Prop :=
  (∃ line ∈ run[start]?, '{' ∈ line.code) ∨
    ∃ i < stop, start ≤ i ∧ depthAfter run start < depthAfter run (i + 1)

/-- Behind the line at the index `stop`, a body that was declared on the line at the index
`start` is over. -/
structure BodyOver (run : List LogicalLine) (start stop : Nat) : Prop where
  start_le : start ≤ stop
  lt_length : stop < run.length
  depth_le : depthAfter run (stop + 1) ≤ depthAfter run start
  begun : BodyBegun run start stop

instance (run : List LogicalLine) (start stop : Nat) : Decidable (BodyBegun run start stop) :=
  inferInstanceAs (Decidable (_ ∨ _))

instance (run : List LogicalLine) (start stop : Nat) : Decidable (BodyOver run start stop) :=
  decidable_of_iff (start ≤ stop ∧ stop < run.length ∧
      depthAfter run (stop + 1) ≤ depthAfter run start ∧ BodyBegun run start stop)
    ⟨fun ⟨hle, hlt, hdepth, hbegun⟩ => ⟨hle, hlt, hdepth, hbegun⟩,
      fun ⟨hle, hlt, hdepth, hbegun⟩ => ⟨hle, hlt, hdepth, hbegun⟩⟩

section Concat

variable (run : List LogicalLine) (line : LogicalLine)

theorem depthAfter_concat {count : Nat} (h : count ≤ run.length) :
    depthAfter (run ++ [line]) count = depthAfter run count := by
  rw [depthAfter, List.take_append_of_le_length h, depthAfter]

theorem depthAfter_concat_length :
    depthAfter (run ++ [line]) (run.length + 1) =
      depthAfter run run.length + line.braceDelta := by
  rw [depthAfter, List.take_of_length_le (by simp), depthAfter, List.take_length]
  simp

theorem bodyBegun_concat {start stop : Nat} (hstart : start < run.length)
    (hstop : stop ≤ run.length) :
    BodyBegun (run ++ [line]) start stop ↔ BodyBegun run start stop := by
  apply or_congr
  · rw [List.getElem?_append_left hstart]
  · apply exists_congr
    intro i
    apply and_congr_right
    intro hlt
    apply and_congr_right
    intro hle
    rw [depthAfter_concat run line (by omega), depthAfter_concat run line (by omega)]

theorem bodyOver_concat {start stop : Nat} (hstop : stop < run.length) :
    BodyOver (run ++ [line]) start stop ↔ BodyOver run start stop := by
  constructor
  · rintro ⟨hle, -, hdepth, hbegun⟩
    rw [depthAfter_concat run line (by omega), depthAfter_concat run line (by omega)] at hdepth
    exact ⟨hle, hstop, hdepth, (bodyBegun_concat run line (by omega) (by omega)).mp hbegun⟩
  · rintro ⟨hle, -, hdepth, hbegun⟩
    refine ⟨hle, by simp; omega, ?_,
      (bodyBegun_concat run line (by omega) (by omega)).mpr hbegun⟩
    rwa [depthAfter_concat run line (by omega), depthAfter_concat run line (by omega)]

end Concat

/-- Nothing lies between a declaration and itself. -/
theorem bodyBegun_self {run : List LogicalLine} {start : Nat} {line : LogicalLine}
    (hline : run[start]? = some line) : BodyBegun run start start ↔ '{' ∈ line.code := by
  constructor
  · rintro (⟨other, hother, hbrace⟩ | ⟨i, hlt, hle, -⟩)
    · rw [hline, Option.mem_some_iff] at hother
      exact hother ▸ hbrace
    · omega
  · exact fun hbrace => Or.inl ⟨line, hline, hbrace⟩

/-- One more line begins the body if it leads deeper. -/
theorem bodyBegun_succ {run : List LogicalLine} {start stop : Nat} (h : start ≤ stop) :
    BodyBegun run start (stop + 1) ↔
      BodyBegun run start stop ∨ depthAfter run start < depthAfter run (stop + 1) := by
  constructor
  · rintro (hbrace | ⟨i, hlt, hle, hdeeper⟩)
    · exact Or.inl (Or.inl hbrace)
    · rcases Nat.lt_succ_iff_lt_or_eq.mp hlt with hbefore | rfl
      · exact Or.inl (Or.inr ⟨i, hbefore, hle, hdeeper⟩)
      · exact Or.inr hdeeper
  · rintro ((hbrace | ⟨i, hlt, hle, hdeeper⟩) | hdeeper)
    · exact Or.inl hbrace
    · exact Or.inr ⟨i, Nat.lt_succ_of_lt hlt, hle, hdeeper⟩
    · exact Or.inr ⟨stop, Nat.lt_succ_self stop, h, hdeeper⟩

end LogicalLine

namespace ClassDecl

/-- The class is recorded from a line: the line declares a class of its name. -/
structure RecordedFrom (c : ClassDecl) (line : LogicalLine) : Prop where
  start_eq : c.startLine = line.first
  declared : ∃ space d, read? line.first space (Code.stripAttributes line.text) = some d ∧
    d.name = c.name

end ClassDecl

namespace SourceModel

open LogicalLine (depthAfter BodyBegun BodyOver)

/-- The class was declared by the line at the index `start` and is still open in front of
the line at the index `count`. -/
structure OpenClass.OpenedBy (c : OpenClass) (run : List LogicalLine) (start count : Nat) :
    Prop where
  declared : ∃ line, run[start]? = some line ∧ c.decl.RecordedFrom line
  endless : c.decl.endLine = none
  start_le : start ≤ count
  depth_eq : c.depth = depthAfter run start
  bodySeen_iff : c.bodySeen = true ↔ BodyBegun run start count
  not_over : ∀ stop < count, ¬ BodyOver run start stop

/-- The class was declared by the line at the index `start` and closed by the first line
behind which its body is over. -/
structure ClosedBy (c : ClassDecl) (run : List LogicalLine) (start stop : Nat) : Prop where
  least : IsLeast {stop | BodyOver run start stop} stop
  ends : ∃ line last, run[start]? = some line ∧ c.RecordedFrom line ∧ run[stop]? = some last ∧
    c.endLine = some (max last.last line.first)

namespace Reading

/-- What a line does to a reading before it closes anything: it moves the depth, and the
open class is the one that was open, or is declared by the line while none was. -/
structure Declares (r : Reading) (line : LogicalLine) (read : Reading) : Prop where
  depth_eq : read.depth = r.depth + line.braceDelta
  classes_eq : read.model.classes = r.model.classes
  openClass : ∀ c, read.openClass = some c →
    (∃ b, r.openClass = some b ∧ b.Continues c ∧ c.bodySeen = b.bodySeen) ∨
      (c.decl.RecordedFrom line ∧ c.decl.endLine = none ∧ c.depth = r.depth ∧
        c.bodySeen = line.code.contains '{')

theorem nextClass_cases {lines : List Text} {r : Reading} {line : LogicalLine} {depth : Int}
    {c : OpenClass} (h : r.nextClass lines line depth = some c) :
    (∃ b, r.openClass = some b ∧ b.Continues c ∧ c.bodySeen = b.bodySeen) ∨
      (c.decl.RecordedFrom line ∧ c.decl.endLine = none ∧ c.depth = depth ∧
        c.bodySeen = line.code.contains '{') := by
  unfold nextClass at h
  split at h
  · rename_i b hopen
    obtain rfl := Option.some.inj h
    exact Or.inl ⟨b, hopen, ⟨by simp [ClassDecl.foldl_addTrait],
      by simp [ClassDecl.foldl_addTrait, ClassDecl.span], rfl⟩, rfl⟩
  · obtain ⟨d, hread, rfl⟩ := Option.map_eq_some_iff.mp h
    have hspan := ClassDecl.read?_span hread
    have hstart : d.startLine = line.first := congrArg Prod.fst hspan
    have hend : d.endLine = none := congrArg Prod.snd hspan
    exact Or.inr ⟨⟨hstart, _, d, hread, rfl⟩, hend, rfl, rfl⟩

theorem step_declares {lines : List Text} {r r' : Reading} {line : LogicalLine}
    (h : step lines r line = .ok r') :
    ∃ read, r.Declares line read ∧ r' = read.closeClass line := by
  unfold step at h
  split at h
  · obtain ⟨read, hread, hclosed⟩ := bind_eq_ok_iff.mp h
    obtain rfl := Except.ok.inj hread
    exact ⟨{ r with depth := r.depth + line.braceDelta },
      ⟨rfl, rfl, fun c hc => Or.inl ⟨c, hc, ⟨rfl, rfl, rfl⟩, rfl⟩⟩,
      (Except.ok.inj hclosed).symm⟩
  · obtain ⟨read, hread, hclosed⟩ := bind_eq_ok_iff.mp h
    rw [readDeclarations_eq, map_eq_ok_iff] at hread
    obtain ⟨imports, -, rfl⟩ := hread
    obtain ⟨space, strict, hheader, -⟩ :=
      header_eq { r with depth := r.depth + line.braceDelta } line
    refine ⟨_, ⟨rfl, by simp [hheader], fun c hc => ?_⟩, (Except.ok.inj hclosed).symm⟩
    have hnext : ({ r with depth := r.depth + line.braceDelta } : Reading).nextClass lines line
        r.depth = some c := hc
    have hcases := nextClass_cases hnext
    exact hcases

/-- The invariant of the reader: the classes that are closed were closed where their bodies
were over, and the body of the open one is not over yet. -/
structure Ends (run : List LogicalLine) (r : Reading) : Prop where
  depth_eq : r.depth = depthAfter run run.length
  closed : ∀ c ∈ r.model.classes, ∃ start stop, ClosedBy c run start stop
  opened : ∀ c, r.openClass = some c → ∃ start, c.OpenedBy run start run.length

end Reading

section Concat

variable {run : List LogicalLine} {start : Nat}

theorem ClosedBy.concat {c : ClassDecl} {stop : Nat} (h : ClosedBy c run start stop)
    (line : LogicalLine) : ClosedBy c (run ++ [line]) start stop := by
  have hlt := h.least.1.lt_length
  obtain ⟨declaring, last, hdeclaring, hrecorded, hlast, hend⟩ := h.ends
  refine ⟨⟨(LogicalLine.bodyOver_concat run line hlt).mpr h.least.1, ?_⟩, declaring, last, ?_,
    hrecorded, ?_, hend⟩
  · intro other hother
    by_cases hbefore : other < run.length
    · exact h.least.2 ((LogicalLine.bodyOver_concat run line hbefore).mp hother)
    · omega
  · rw [List.getElem?_append_left (List.getElem?_eq_some_iff.mp hdeclaring).1, hdeclaring]
  · rw [List.getElem?_append_left hlt, hlast]

theorem OpenClass.OpenedBy.concat {c : OpenClass} (h : c.OpenedBy run start run.length)
    (line : LogicalLine) : c.OpenedBy (run ++ [line]) start run.length := by
  obtain ⟨declaring, hdeclaring, hrecorded⟩ := h.declared
  have hlt : start < run.length := (List.getElem?_eq_some_iff.mp hdeclaring).1
  refine ⟨⟨declaring, ?_, hrecorded⟩, h.endless, h.start_le, ?_, ?_, ?_⟩
  · rw [List.getElem?_append_left hlt, hdeclaring]
  · rw [h.depth_eq, LogicalLine.depthAfter_concat run line h.start_le]
  · rw [h.bodySeen_iff, LogicalLine.bodyBegun_concat run line hlt (Nat.le_refl _)]
  · intro stop hstop hover
    exact h.not_over stop hstop ((LogicalLine.bodyOver_concat run line hstop).mp hover)

theorem OpenClass.OpenedBy.continues {b c : OpenClass} {count : Nat}
    (h : b.OpenedBy run start count) (hsame : b.Continues c) (hseen : c.bodySeen = b.bodySeen) :
    c.OpenedBy run start count := by
  obtain ⟨declaring, hdeclaring, hstart, space, d, hread, hname⟩ := h.declared
  obtain ⟨hstartLine, hendLine⟩ := Prod.mk.inj hsame.span_eq
  exact
    { declared := ⟨declaring, hdeclaring, hstartLine.trans hstart, space, d, hread,
        hname.trans hsame.name_eq.symm⟩
      endless := hendLine.trans h.endless
      start_le := h.start_le
      depth_eq := hsame.depth_eq.trans h.depth_eq
      bodySeen_iff := hseen ▸ h.bodySeen_iff
      not_over := h.not_over }

end Concat

/-- Once a line is read, the class that is open in front of its end goes on or is closed. -/
theorem OpenClass.OpenedBy.closeClass {r : Reading} {c : OpenClass} {run : List LogicalLine}
    {line : LogicalLine} {start stop : Nat} (h : c.OpenedBy run start stop)
    (hopen : r.openClass = some c) (hline : run[stop]? = some line)
    (hdepth : r.depth = depthAfter run (stop + 1)) :
    (∃ d, (r.closeClass line).openClass = some d ∧ d.OpenedBy run start (stop + 1) ∧
      (r.closeClass line).model.classes = r.model.classes) ∨
      (r.closeClass line).openClass = none ∧ ∃ d, ClosedBy d run start stop ∧
        (r.closeClass line).model.classes = r.model.classes ++ [d] := by
  have hlt : stop < run.length := (List.getElem?_eq_some_iff.mp hline).1
  have hbegun : BodyBegun run start (stop + 1) ↔
      BodyBegun run start stop ∨ depthAfter run start < depthAfter run (stop + 1) :=
    LogicalLine.bodyBegun_succ h.start_le
  unfold Reading.closeClass
  simp only [hopen]
  split
  · rename_i hdeeper
    rw [h.depth_eq, hdepth] at hdeeper
    refine Or.inl ⟨_, rfl, ⟨h.declared, h.endless, Nat.le_succ_of_le h.start_le, h.depth_eq,
      ?_, ?_⟩, rfl⟩
    · simp [hbegun, hdeeper]
    · intro other hother hover
      rcases Nat.lt_succ_iff_lt_or_eq.mp hother with hbefore | rfl
      · exact h.not_over other hbefore hover
      · have hback := hover.depth_le
        omega
  · rename_i hback
    rw [h.depth_eq, hdepth, Int.not_lt] at hback
    split
    · rename_i hseen
      obtain ⟨declaring, hdeclaring, hrecorded⟩ := h.declared
      refine Or.inr ⟨rfl, c.decl.close line.last,
        ⟨⟨⟨h.start_le, hlt, hback, h.bodySeen_iff.mp hseen⟩, ?_⟩, declaring, line, hdeclaring,
          ⟨hrecorded.start_eq, hrecorded.declared⟩, hline, ?_⟩, rfl⟩
      · intro other hover
        by_contra hbefore
        exact h.not_over other (Nat.lt_of_not_le hbefore) hover
      · rw [← hrecorded.start_eq]
        rfl
    · rename_i hseen
      have hnone : ¬ BodyBegun run start stop := fun hbegun => hseen (h.bodySeen_iff.mpr hbegun)
      refine Or.inl ⟨c, hopen, ⟨h.declared, h.endless, Nat.le_succ_of_le h.start_le, h.depth_eq,
        ?_, ?_⟩, rfl⟩
      · rw [h.bodySeen_iff, hbegun]
        exact ⟨Or.inl, fun hor => hor.resolve_right (Int.not_lt.mpr hback)⟩
      · intro other hother hover
        rcases Nat.lt_succ_iff_lt_or_eq.mp hother with hbefore | rfl
        · exact h.not_over other hbefore hover
        · exact hnone hover.begun

namespace Reading

/-- What the declarations of a line leave open was declared by a line that has been read. -/
theorem Declares.openedBy {run : List LogicalLine} {r read : Reading} {line : LogicalLine}
    (hread : r.Declares line read) (h : Ends run r) {c : OpenClass}
    (hopen : read.openClass = some c) :
    ∃ start, c.OpenedBy (run ++ [line]) start run.length := by
  rcases hread.openClass c hopen with ⟨b, hbefore, hsame, hseen⟩ |
    ⟨hrecorded, hend, hdepth, hseen⟩
  · obtain ⟨start, hstart⟩ := h.opened b hbefore
    exact ⟨start, (hstart.concat line).continues hsame hseen⟩
  · have hline : (run ++ [line])[run.length]? = some line := List.getElem?_concat_length
    refine ⟨run.length, ⟨line, hline, hrecorded⟩, hend, Nat.le_refl _, ?_, ?_, ?_⟩
    · rw [hdepth, h.depth_eq, LogicalLine.depthAfter_concat run line (Nat.le_refl _)]
    · rw [LogicalLine.bodyBegun_self hline, hseen, List.contains_iff_mem]
    · intro stop hstop hover
      have hle := hover.start_le
      omega

/-- One logical line keeps the invariant. -/
theorem ends_step {lines : List Text} {run : List LogicalLine} {r r' : Reading}
    {line : LogicalLine} (h : Ends run r) (hstep : step lines r line = .ok r') :
    Ends (run ++ [line]) r' := by
  obtain ⟨read, hread, rfl⟩ := step_declares hstep
  have hdepth : read.depth = depthAfter (run ++ [line]) (run.length + 1) := by
    rw [hread.depth_eq, h.depth_eq, LogicalLine.depthAfter_concat_length]
  have hclosed : ∀ c ∈ read.model.classes, ∃ start stop, ClosedBy c (run ++ [line]) start stop := by
    intro c hc
    rw [hread.classes_eq] at hc
    obtain ⟨start, stop, hclosed⟩ := h.closed c hc
    exact ⟨start, stop, hclosed.concat line⟩
  have hafter :
      (read.closeClass line).depth = depthAfter (run ++ [line]) (run ++ [line]).length := by
    rw [(closeClass_frame read line).1, hdepth, List.length_append, List.length_singleton]
  cases hopen : read.openClass with
  | none =>
    have hsame : read.closeClass line = read := by simp [closeClass, hopen]
    rw [hsame] at hafter ⊢
    exact ⟨hafter, hclosed, by simp [hopen]⟩
  | some c =>
    obtain ⟨start, hstart⟩ := hread.openedBy h hopen
    rcases hstart.closeClass hopen List.getElem?_concat_length hdepth with
      ⟨d, hgoes, hd, hclasses⟩ | ⟨hnone, d, hd, hclasses⟩
    · refine ⟨hafter, hclasses ▸ hclosed, ?_⟩
      intro e he
      obtain rfl := Option.some.inj (hgoes.symm.trans he)
      exact ⟨start, by simpa using hd⟩
    · refine ⟨hafter, ?_, by simp [hnone]⟩
      intro e he
      rw [hclasses] at he
      rcases List.mem_append.mp he with hold | hnew
      · exact hclosed e hold
      · obtain rfl := List.mem_singleton.mp hnew
        exact ⟨start, run.length, hd⟩

theorem ends_run {lines : List Text} {run rest : List LogicalLine} {r r' : Reading}
    (h : Ends run r) (hrun : rest.foldlM (step lines) r = .ok r') : Ends (run ++ rest) r' := by
  induction rest generalizing run r with
  | nil =>
    obtain rfl := Except.ok.inj hrun
    simpa using h
  | cons line rest ih =>
    obtain ⟨next, hstep, hnext⟩ := run_cons.mp hrun
    rw [List.append_cons]
    exact ih (ends_step h hstep) hnext

theorem ends_start : Ends [] {} where
  depth_eq := rfl
  closed := by simp
  opened := by simp

end Reading

/-- A class of the model has an end if its body is over behind some line, and then the first
such line gives it; otherwise it has none. -/
theorem Reading.Ends.class_end {run : List LogicalLine} {r : Reading} (h : r.Ends run)
    {first after : Nat} (htiles : LogicalLine.Tiles first run after) {c : ClassDecl}
    (hc : c ∈ r.finish.classes) :
    ∃ (start : Nat) (line : LogicalLine), run[start]? = some line ∧ c.RecordedFrom line ∧
      ((∃ (stop : Nat) (last : LogicalLine), IsLeast {stop | BodyOver run start stop} stop ∧
          run[stop]? = some last ∧ c.endLine = some last.last) ∨
        c.endLine = none ∧ ∀ stop, ¬ BodyOver run start stop) := by
  rcases List.mem_append.mp hc with hclosed | hopen
  · obtain ⟨start, stop, hleast, line, last, hline, hrecorded, hlast, hend⟩ := h.closed c hclosed
    have hle := htiles.first_le_last hleast.1.start_le hline hlast
    rw [Nat.max_eq_left hle] at hend
    exact ⟨start, line, hline, hrecorded, Or.inl ⟨stop, last, hleast, hlast, hend⟩⟩
  · obtain ⟨o, ho, rfl⟩ := Option.map_eq_some_iff.mp (Option.mem_toList.mp hopen)
    obtain ⟨start, hstart⟩ := h.opened o ho
    obtain ⟨line, hline, hrecorded⟩ := hstart.declared
    refine ⟨start, line, hline, hrecorded, Or.inr ⟨hstart.endless, ?_⟩⟩
    intro stop hover
    exact hstart.not_over stop hover.lt_length hover

theorem ends_ofLines {lines : List Text} {r : Reading}
    (hrun : (LogicalLine.ofLines lines).foldlM (Reading.step lines) {} = .ok r) :
    r.Ends (LogicalLine.ofLines lines) :=
  Reading.ends_run Reading.ends_start hrun

/-- A class is recorded from the line that begins where it does. -/
theorem recordedFrom_of_first_eq {lines : List Text} {model : SourceModel}
    (h : ofLines lines = .ok model) {c : ClassDecl} (hc : c ∈ model.classes) {start : Nat}
    {line : LogicalLine} (hline : (LogicalLine.ofLines lines)[start]? = some line)
    (hfirst : line.first = c.startLine) : c.RecordedFrom line := by
  obtain ⟨r, hrun, rfl⟩ := ofLines_eq_ok_iff.mp h
  have htiles := (LogicalLine.cuts_ofLines lines).tiles
  obtain ⟨index, other, hother, hrecorded, -⟩ := (ends_ofLines hrun).class_end htiles hc
  obtain rfl := htiles.index_eq hline hother (hfirst.trans hrecorded.start_eq)
  rw [hline, Option.some.injEq] at hother
  exact hother ▸ hrecorded

/-- Every class is recorded from one logical line. It ends with the first line from there on
behind which the brace depth is back at the one in front of the declaration, once a brace
has been opened; it has no end exactly if there is no such line. -/
theorem class_ends_where_depth_returns {lines : List Text} {model : SourceModel}
    (h : ofLines lines = .ok model) {c : ClassDecl} (hc : c ∈ model.classes) :
    (∃ (start : Nat) (line : LogicalLine),
        (LogicalLine.ofLines lines)[start]? = some line ∧ c.RecordedFrom line) ∧
      ∀ (start : Nat) (line : LogicalLine), (LogicalLine.ofLines lines)[start]? = some line →
        c.RecordedFrom line →
          (∀ (stop : Nat) (last : LogicalLine),
            IsLeast {stop | BodyOver (LogicalLine.ofLines lines) start stop} stop →
              (LogicalLine.ofLines lines)[stop]? = some last → c.endLine = some last.last) ∧
          (c.endLine = none ↔ ∀ stop, ¬ BodyOver (LogicalLine.ofLines lines) start stop) := by
  obtain ⟨r, hrun, rfl⟩ := ofLines_eq_ok_iff.mp h
  have htiles := (LogicalLine.cuts_ofLines lines).tiles
  obtain ⟨start, line, hline, hrecorded, hend⟩ := (ends_ofLines hrun).class_end htiles hc
  refine ⟨⟨start, line, hline, hrecorded⟩, ?_⟩
  intro start' line' hline' hrecorded'
  obtain rfl : start' = start :=
    htiles.index_eq hline' hline (hrecorded'.start_eq.symm.trans hrecorded.start_eq)
  rcases hend with ⟨stop, last, hleast, hlast, hend⟩ | ⟨hend, hnever⟩
  · refine ⟨?_, ?_⟩
    · intro stop' last' hleast' hlast'
      obtain rfl := hleast'.unique hleast
      rw [hlast, Option.some.injEq] at hlast'
      rw [hend, hlast']
    · rw [hend]
      exact ⟨fun hnone => by simp at hnone, fun hnever => absurd hleast.1 (hnever stop)⟩
  · exact ⟨fun stop last hleast _ => absurd hleast.1 (hnever stop), fun _ => hnever, fun _ => hend⟩

/-- The class of the first line ends with the fourth logical line; the trait of the sixth
has no end. -/
theorem class_ends_where_depth_returns_openEnded :
    ∃ model c d, ofLines openEnded = .ok model ∧ c ∈ model.classes ∧ d ∈ model.classes ∧
      c.startLine = 1 ∧ IsLeast {stop | BodyOver (LogicalLine.ofLines openEnded) 0 stop} 3 ∧
      c.endLine = some 5 ∧ d.startLine = 7 ∧
      (∀ stop, ¬ BodyOver (LogicalLine.ofLines openEnded) 5 stop) ∧ d.endLine = none := by
  have hread : (fun m : SourceModel => m.classes.map ClassDecl.startLine) <$> ofLines openEnded =
      .ok [1, 7] := by
    decide +kernel
  obtain ⟨model, hmodel, hstarts⟩ := map_eq_ok_iff.mp hread
  obtain ⟨c, hc, hcstart⟩ : ∃ c ∈ model.classes, c.startLine = 1 :=
    List.mem_map.mp (by simp [hstarts])
  obtain ⟨d, hd, hdstart⟩ : ∃ d ∈ model.classes, d.startLine = 7 :=
    List.mem_map.mp (by simp [hstarts])
  have hspan (i : Nat) (span : Nat × Nat)
      (h : ((LogicalLine.ofLines openEnded)[i]?).map (fun l => (l.first, l.last)) = some span) :
      ∃ line, (LogicalLine.ofLines openEnded)[i]? = some line ∧ line.first = span.1 ∧
        line.last = span.2 := by
    obtain ⟨line, hline, rfl⟩ := Option.map_eq_some_iff.mp h
    exact ⟨line, hline, rfl, rfl⟩
  obtain ⟨head, hhead, hheadFirst, -⟩ := hspan 0 (1, 1) (by decide +kernel)
  obtain ⟨last, hlast, -, hlastLine⟩ := hspan 3 (5, 5) (by decide +kernel)
  obtain ⟨trait, htrait, htraitFirst, -⟩ := hspan 5 (7, 8) (by decide +kernel)
  obtain ⟨hended, -⟩ := (class_ends_where_depth_returns hmodel hc).2 0 head hhead
    (recordedFrom_of_first_eq hmodel hc hhead (hheadFirst.trans hcstart.symm))
  obtain ⟨-, hendless⟩ := (class_ends_where_depth_returns hmodel hd).2 5 trait htrait
    (recordedFrom_of_first_eq hmodel hd htrait (htraitFirst.trans hdstart.symm))
  have hearlier : ∀ stop < 3, ¬ BodyOver (LogicalLine.ofLines openEnded) 0 stop := by
    decide +kernel
  have hleast : IsLeast {stop | BodyOver (LogicalLine.ofLines openEnded) 0 stop} 3 :=
    ⟨by decide +kernel, fun stop hover => Nat.not_lt.mp fun hlt => hearlier stop hlt hover⟩
  have hnone : ∀ stop < (LogicalLine.ofLines openEnded).length,
      ¬ BodyOver (LogicalLine.ofLines openEnded) 5 stop := by
    decide +kernel
  have hnever : ∀ stop, ¬ BodyOver (LogicalLine.ofLines openEnded) 5 stop :=
    fun stop hover => hnone stop hover.lt_length hover
  exact ⟨model, c, d, hmodel, hc, hd, hcstart, hleast,
    (hended 3 last hleast hlast).trans (congrArg some hlastLine),
    hdstart, hnever, hendless.mpr hnever⟩

end SourceModel

end PhpLint
