import PhpLint.Proofs.Code.Scrubber
import PhpLint.Proofs.SourceModel.Steps

/-!
Logical lines against the physical lines they are made of. However declarations
are joined, the physical lines are cut into stretches, one for each logical line,
with nothing left out and nothing taken twice; a logical line counts the braces of
its own stretch. So the brace depth at the end of a file depends on its scrubbed
lines alone.
-/

namespace PhpLint.LogicalLine

/-- The logical line takes in the given physical lines, the first of which has the
given number and is reached by the given scrubber. -/
structure Joins (line : LogicalLine) (number : Nat) (s : Scrubber) (taken : List Text) :
    Prop where
  nonempty : 0 < taken.length
  length_le : taken.length ≤ maxJoined
  first_eq : line.first = number
  last_eq : line.last + 1 = number + taken.length
  continues_eq : line.continues = (s.inComment || s.inLiteral)
  delta_eq : line.braceDelta = ((s.codes taken).map Code.braceDelta).sum
  code_eq : Code.braceDelta line.code = line.braceDelta

/-- Physical lines, read from a number and a scrubber on, are cut into the stretches
of some logical lines. -/
inductive Cuts : Nat → Scrubber → List Text → List LogicalLine → Prop where
  | nil {number : Nat} {s : Scrubber} : Cuts number s [] []
  | cons {number : Nat} {s : Scrubber} {line : LogicalLine} {taken rest : List Text}
      {more : List LogicalLine} (hline : Joins line number s taken)
      (hmore : Cuts (number + taken.length) (s.after taken) rest more) :
      Cuts number s (taken ++ rest) (line :: more)

theorem braceDelta_join (joined piece : Text) :
    Code.braceDelta (append joined piece) = Code.braceDelta joined + Code.braceDelta piece := by
  have hpiece := Code.braceDelta_trim piece
  unfold append
  simp only
  split
  · rename_i hempty
    rw [List.isEmpty_iff.mp hempty] at hpiece
    simp [← hpiece, Code.braceDelta]
  · split
    · rename_i hempty
      rw [List.isEmpty_iff.mp hempty, hpiece]
      simp [Code.braceDelta]
    · rw [Code.braceDelta_append, Code.braceDelta, hpiece]
      simp

theorem joins_single (number : Nat) (s : Scrubber) (raw text : Text) :
    Joins
      { first := number, last := number, text, code := (s.scrub raw).1
        braceDelta := Code.braceDelta (s.scrub raw).1
        continues := s.inComment || s.inLiteral } number s [raw] where
  nonempty := by simp
  length_le := by simp [maxJoined]
  first_eq := rfl
  last_eq := rfl
  continues_eq := rfl
  delta_eq := by simp
  code_eq := rfl

theorem Buffer.joins_start {line : LogicalLine} {number : Nat} {s : Scrubber} {taken : List Text}
    (kind : Pending) (h : Joins line number s taken) :
    Joins (Buffer.start kind line).line number s taken :=
  { h with code_eq := (Code.braceDelta_trim line.code).trans h.code_eq }

theorem Buffer.joins_push {b : Buffer} {number : Nat} {s : Scrubber} {taken : List Text}
    (h : Joins b.line number s taken) (hroom : taken.length < maxJoined) (raw text : Text) :
    Joins (b.push (number + taken.length) text ((s.after taken).scrub raw).1).line number s
      (taken ++ [raw]) where
  nonempty := by simp
  length_le := by
    rw [List.length_append, List.length_singleton]
    omega
  first_eq := h.first_eq
  last_eq := by simp [Buffer.push]; omega
  continues_eq := h.continues_eq
  delta_eq := by
    simp [Buffer.push, h.delta_eq, Scrubber.codes_append]
  code_eq := by
    simp [Buffer.push, braceDelta_join, h.code_eq]

theorem Buffer.joined_lt_maxJoined {b : Buffer} {code : Text} {next : Option Text}
    (h : ¬ b.isComplete code next = true) : b.joined < maxJoined := by
  unfold Buffer.isComplete at h
  simp only [Bool.or_eq_true, decide_eq_true_eq, not_or] at h
  omega

/-- What a buffer holds of the lines before the next one; without a buffer nothing
is held back. -/
def Held : Option Buffer → Nat → Scrubber → List Text → Prop
  | none, _, _, taken => taken = []
  | some b, number, s, taken =>
    Joins b.line number s taken ∧ b.joined = taken.length ∧ taken.length < maxJoined

/-- The reader of logical lines cuts the lines that it holds back, together with the
lines that are to come. -/
theorem cuts_ofLinesFrom {buffer : Option Buffer} {number : Nat} {s texter : Scrubber}
    {taken : List Text} (hheld : Held buffer number s taken) (rest : List Text) :
    Cuts number s (taken ++ rest)
      (ofLinesFrom (number + taken.length) (s.after taken) texter buffer rest) := by
  -- The stretch in the buffer grows by one line at each step, until it is cut off.
  induction rest generalizing buffer number s texter taken with
  | nil =>
    cases buffer with
    | none =>
      obtain rfl := hheld
      exact .nil
    | some b => exact .cons hheld.1 .nil
  | cons raw rest ih =>
    cases buffer with
    | some b =>
      obtain ⟨hjoins, hcount, hroom⟩ := hheld
      have hpush := Buffer.joins_push hjoins hroom raw (texter.scrub raw).1
      have hafter : ((s.after taken).scrub raw).2 = s.after (taken ++ [raw]) := by
        simp [Scrubber.after_append]
      have hnumber : number + taken.length + 1 = number + (taken ++ [raw]).length := by
        simp [Nat.add_assoc]
      rw [List.append_cons, ofLinesFrom]
      simp only [hafter, hnumber]
      split
      · have hnone : Held none (number + (taken ++ [raw]).length) (s.after (taken ++ [raw])) [] :=
          rfl
        exact .cons hpush (ih hnone)
      · rename_i hopen
        have hlt := Buffer.joined_lt_maxJoined hopen
        apply ih
        refine ⟨hpush, by simp [Buffer.push, hcount], ?_⟩
        simpa [Buffer.push, hcount] using hlt
    | none =>
      obtain rfl := hheld
      have hsingle := joins_single number s raw (texter.scrub raw).1
      rw [ofLinesFrom]
      simp only [Scrubber.after_nil, List.length_nil, Nat.add_zero, List.nil_append]
      split
      · rename_i kind hkind
        have hstart : Held (some (.start kind _)) number s [raw] :=
          ⟨Buffer.joins_start kind hsingle, rfl, by simp [maxJoined]⟩
        exact ih hstart
      · have hnone : Held none (number + 1) (s.after [raw]) [] := rfl
        exact .cons hsingle (ih hnone)

theorem cuts_ofLines (lines : List Text) : Cuts 1 {} lines (ofLines lines) := by
  have hnone : Held none 1 {} [] := rfl
  exact cuts_ofLinesFrom hnone lines

/-- Where the logical lines are split, so are the physical ones. -/
theorem Cuts.split {number : Nat} {s : Scrubber} {raw : List Text} {before rest : List LogicalLine}
    (h : Cuts number s raw (before ++ rest)) :
    ∃ taken left, raw = taken ++ left ∧ Cuts number s taken before ∧
      Cuts (number + taken.length) (s.after taken) left rest := by
  induction before generalizing number s raw with
  | nil => exact ⟨[], raw, rfl, .nil, h⟩
  | cons line before ih =>
    cases h with
    | @cons _ _ _ first _ _ hline hmore =>
      obtain ⟨taken, left, rfl, htaken, hleft⟩ := ih hmore
      refine ⟨first ++ taken, left, by simp, .cons hline htaken, ?_⟩
      simpa [Scrubber.after_append, Nat.add_assoc] using hleft

theorem Cuts.stretch {number : Nat} {s : Scrubber} {raw : List Text} {cut : List LogicalLine}
    (h : Cuts number s raw cut) {line : LogicalLine} (hline : line ∈ cut) :
    ∃ before taken rest, raw = before ++ taken ++ rest ∧
      Joins line (number + before.length) (s.after before) taken := by
  obtain ⟨earlier, later, rfl⟩ := List.append_of_mem hline
  obtain ⟨before, left, rfl, -, hleft⟩ := h.split
  cases hleft with
  | @cons _ _ _ taken rest _ hjoins hmore => exact ⟨before, taken, rest, by simp, hjoins⟩

theorem Cuts.sum_braceDelta {number : Nat} {s : Scrubber} {raw : List Text}
    {cut : List LogicalLine} (h : Cuts number s raw cut) :
    (cut.map LogicalLine.braceDelta).sum = ((s.codes raw).map Code.braceDelta).sum := by
  induction h with
  | nil => rfl
  | cons hline _ ih =>
    simp [Scrubber.codes_append, ih, hline.delta_eq]

/-- Logical lines follow one another without a gap or an overlap from the physical
line `start` on, and the last of them ends right before the line `stop`. -/
def Tiles : Nat → List LogicalLine → Nat → Prop
  | start, [], stop => start = stop
  | start, line :: more, stop =>
    line.first = start ∧ line.first ≤ line.last ∧ Tiles (line.last + 1) more stop

theorem Cuts.tiles {number : Nat} {s : Scrubber} {raw : List Text} {cut : List LogicalLine}
    (h : Cuts number s raw cut) : Tiles number cut (number + raw.length) := by
  induction h with
  | nil => rfl
  | @cons number s line taken rest more hline hmore ih =>
    have hlast := hline.last_eq
    have hfirst := hline.first_eq
    have hnonempty := hline.nonempty
    refine ⟨hfirst, by omega, ?_⟩
    rw [hlast, List.length_append, ← Nat.add_assoc]
    exact ih

theorem Tiles.last_eq {start stop : Nat} {before : List LogicalLine} {line : LogicalLine}
    (h : Tiles start (before ++ [line]) stop) : line.last + 1 = stop := by
  induction before generalizing start with
  | nil => exact h.2.2
  | cons _ before ih => exact ih h.2.2

theorem Tiles.before {start stop : Nat} {before rest : List LogicalLine} {line : LogicalLine}
    (h : Tiles start (before ++ line :: rest) stop) : Tiles start before line.first := by
  induction before generalizing start with
  | nil => exact h.1.symm
  | cons _ before ih => exact ⟨h.1, h.2.1, ih h.2.2⟩

theorem Tiles.behind {start stop : Nat} {before rest : List LogicalLine} {line : LogicalLine}
    (h : Tiles start (before ++ line :: rest) stop) : Tiles (line.last + 1) rest stop := by
  induction before generalizing start with
  | nil => exact h.2.2
  | cons _ before ih => exact ih h.2.2

theorem Tiles.le {start stop : Nat} {cut : List LogicalLine} (h : Tiles start cut stop) :
    start ≤ stop := by
  induction cut generalizing start with
  | nil => exact Nat.le_of_eq h
  | cons line cut ih =>
    have hlater := ih h.2.2
    have hline := h.2.1
    rw [← h.1]
    omega

theorem Tiles.first_lt {start stop : Nat} {cut : List LogicalLine} (h : Tiles start cut stop)
    {line : LogicalLine} (hline : line ∈ cut) : line.first < stop := by
  induction cut generalizing start with
  | nil => simp at hline
  | cons l cut ih =>
    rcases List.mem_cons.mp hline with rfl | hmem
    · have hlater := h.2.2.le
      have hspan := h.2.1
      omega
    · exact ih h.2.2 hmem

theorem Tiles.le_first {start stop : Nat} {run : List LogicalLine} (h : Tiles start run stop)
    {line : LogicalLine} (hline : line ∈ run) : start ≤ line.first := by
  induction run generalizing start with
  | nil => simp at hline
  | cons l run ih =>
    obtain ⟨hfirst, hle, hrest⟩ := h
    rcases List.mem_cons.mp hline with rfl | hmem
    · omega
    · have hbound := ih hrest hmem
      omega

theorem Tiles.first_le {start stop : Nat} {run : List LogicalLine} (h : Tiles start run stop)
    {line : LogicalLine} (hline : line ∈ run) : line.first ≤ line.last := by
  induction run generalizing start with
  | nil => simp at hline
  | cons l run ih =>
    rcases List.mem_cons.mp hline with rfl | hmem
    · exact h.2.1
    · exact ih h.2.2 hmem

/-- Of the lines of a tiling each is over before a later one begins. -/
theorem Tiles.pairwise {start stop : Nat} {run : List LogicalLine} (h : Tiles start run stop) :
    run.Pairwise fun line later => line.last < later.first := by
  induction run generalizing start with
  | nil => exact .nil
  | cons line run ih =>
    obtain ⟨-, -, hrest⟩ := h
    exact List.pairwise_cons.mpr ⟨fun later hlater => hrest.le_first hlater, ih hrest⟩

theorem Tiles.first_le_last {first after : Nat} {run : List LogicalLine}
    (h : Tiles first run after) {start stop : Nat} {line last : LogicalLine} (hle : start ≤ stop)
    (hline : run[start]? = some line) (hlast : run[stop]? = some last) :
    line.first ≤ last.last := by
  obtain ⟨hstart, rfl⟩ := List.getElem?_eq_some_iff.mp hline
  obtain ⟨hstop, rfl⟩ := List.getElem?_eq_some_iff.mp hlast
  rcases Nat.eq_or_lt_of_le hle with rfl | hlt
  · exact h.first_le (List.getElem_mem hstart)
  · have hbehind := List.pairwise_iff_getElem.mp h.pairwise start stop hstart hstop hlt
    have hlater := h.first_le (List.getElem_mem hstop)
    have hearlier := h.first_le (List.getElem_mem hstart)
    omega

/-- A line of a tiling is known by where it begins. -/
theorem Tiles.index_eq {first after : Nat} {run : List LogicalLine} (h : Tiles first run after)
    {i j : Nat} {line other : LogicalLine} (hline : run[i]? = some line)
    (hother : run[j]? = some other) (hfirst : line.first = other.first) : i = j := by
  obtain ⟨hi, rfl⟩ := List.getElem?_eq_some_iff.mp hline
  obtain ⟨hj, rfl⟩ := List.getElem?_eq_some_iff.mp hother
  have hile := h.first_le (List.getElem_mem hi)
  have hjle := h.first_le (List.getElem_mem hj)
  rcases Nat.lt_trichotomy i j with hlt | heq | hgt
  · have hbehind := List.pairwise_iff_getElem.mp h.pairwise i j hi hj hlt
    omega
  · exact heq
  · have hbehind := List.pairwise_iff_getElem.mp h.pairwise j i hj hi hgt
    omega

/-- From a logical line that starts in plain code on, a fresh scrubber returns what
the scrubber of the whole file returns. -/
theorem cuts_drop_of_plain {lines : List Text} {passed rest : List LogicalLine} {line : LogicalLine}
    (hlines : ofLines lines = passed ++ line :: rest) (hplain : line.continues = false) :
    1 ≤ line.first ∧ Cuts line.first {} (lines.drop (line.first - 1)) (line :: rest) := by
  have hcuts := cuts_ofLines lines
  rw [hlines] at hcuts
  obtain ⟨before, left, rfl, -, hleft⟩ := hcuts.split
  have hjoins : line.first = 1 + before.length ∧
      line.continues = ((({} : Scrubber).after before).inComment ||
        (({} : Scrubber).after before).inLiteral) := by
    cases hleft with
    | cons hline _ => exact ⟨hline.first_eq, hline.continues_eq⟩
  have hfresh : ({} : Scrubber).after before = {} :=
    Scrubber.eq_fresh (Scrubber.after_keepLiterals _ before) (hjoins.2 ▸ hplain)
  have hdrop : (before ++ left).drop (line.first - 1) = left := by
    rw [hjoins.1, Nat.add_sub_cancel_left, List.drop_left]
  rw [hfresh, ← hjoins.1] at hleft
  rw [hdrop]
  exact ⟨by omega, hleft⟩

/-- The scrubbed physical lines that a logical line takes in. -/
def physicalCodes (lines : List Text) (line : LogicalLine) : List Text :=
  ((codeLines lines).drop (line.first - 1)).take (line.last + 1 - line.first)

theorem Joins.physicalCodes_eq {line : LogicalLine} {before taken rest : List Text}
    (h : Joins line (1 + before.length) (({} : Scrubber).after before) taken) :
    physicalCodes (before ++ taken ++ rest) line =
      (({} : Scrubber).after before).codes taken := by
  have hfirst : line.first - 1 = before.length := by
    have := h.first_eq
    omega
  have hcount : line.last + 1 - line.first = taken.length := by
    rw [h.last_eq, h.first_eq]
    omega
  have hcodes : codeLines (before ++ taken ++ rest) =
      ({} : Scrubber).codes before ++ ((({} : Scrubber).after before).codes taken ++
        (({} : Scrubber).after (before ++ taken)).codes rest) := by
    change ({} : Scrubber).codes (before ++ taken ++ rest) = _
    simp [Scrubber.codes_append, Scrubber.after_append]
  rw [physicalCodes, hfirst, hcount, hcodes, List.drop_left' (by simp), List.take_left' (by simp)]

/-- The logical lines of a file cover its physical lines, each once and in order,
and count the braces of the lines that they cover; the brace depth at the end of a
file is the number of opening less the number of closing braces in its code. -/
theorem logicalLines_tile_file (lines : List Text) :
    Tiles 1 (ofLines lines) (lines.length + 1) ∧
      (ofLines lines = [] ↔ lines = []) ∧
      (∀ line ∈ ofLines lines,
        line.last + 1 - line.first ≤ 64 ∧
        line.braceDelta = Code.braceDelta line.code ∧
        line.braceDelta = ((physicalCodes lines line).map Code.braceDelta).sum) ∧
      ∀ model, SourceModel.ofLines lines = .ok model →
        model.finalDepth =
          ((codeLines lines).flatten.count '{' : Int) - (codeLines lines).flatten.count '}' := by
  have hcuts := cuts_ofLines lines
  refine ⟨?_, ?_, ?_, ?_⟩
  · rw [Nat.add_comm]
    exact hcuts.tiles
  · constructor
    · intro hempty
      rw [hempty] at hcuts
      cases hcuts
      rfl
    · rintro rfl
      rfl
  · intro line hline
    obtain ⟨before, taken, rest, rfl, hjoins⟩ := hcuts.stretch hline
    refine ⟨?_, hjoins.code_eq.symm, ?_⟩
    · have hlength : taken.length ≤ 64 := hjoins.length_le
      rw [hjoins.last_eq, hjoins.first_eq]
      omega
    · rw [hjoins.physicalCodes_eq, hjoins.delta_eq]
  · intro model hmodel
    obtain ⟨r, hrun, rfl⟩ := SourceModel.ofLines_eq_ok_iff.mp hmodel
    calc
      r.finish.finalDepth = r.depth := rfl
      _ = ((ofLines lines).map LogicalLine.braceDelta).sum := by
        rw [SourceModel.Reading.run_depth hrun, Int.zero_add]
      _ = ((codeLines lines).map Code.braceDelta).sum := hcuts.sum_braceDelta
      _ = Code.braceDelta (codeLines lines).flatten := (Code.braceDelta_flatten _).symm
      _ = _ := Code.braceDelta_eq_count _

/-- A declaration over three lines, the last of which opens its body. -/
example :
    (ofLines (["<?php", "function f(", "    int $n,", ") \x7b", "\x7d"].map String.toList)).map
      (fun line => (line.first, line.last, line.braceDelta)) =
      [(1, 1, 0), (2, 4, 1), (5, 5, -1)] := by
  decide +kernel

end PhpLint.LogicalLine
