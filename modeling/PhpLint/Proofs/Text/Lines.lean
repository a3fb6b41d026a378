import Mathlib.Data.List.Basic
import PhpLint.Proofs.Text.Basic
import PhpLint.Text.Lines

/-!
The lines of a source file. A text falls into lines in one way only: either it is empty, or
it is a line without an end, or a line stands in front of a line end and of a text that falls
into lines in turn. Everything that is said of the lines here is an induction on how a text
falls into them: nothing but the line ends is lost, they are counted, and it does not matter
which of the three kinds they are of.
-/

namespace PhpLint.Text

/-- Whether a character ends a line, alone or with the one beside it. -/
def isLineEnd (c : Char) : Bool := c == '\r' || c == '\n'

/-- The pair of a carriage return and a line feed becomes a line feed. -/
def replacePairs : Text → Text
  | [] => []
  | '\r' :: '\n' :: s => '\n' :: replacePairs s
  | c :: s => c :: replacePairs s

/-- Every pair becomes a line feed, and then every carriage return that is left. -/
def withFeeds (s : Text) : Text :=
  (replacePairs s).map fun c => if c = '\r' then '\n' else c

/-- The number of line ends; a pair counts once. -/
def lineEnds (s : Text) : Nat := (replacePairs s).countP isLineEnd

/-- Whether a text is not empty and does not end in a line end. -/
def goesOn (s : Text) : Bool := s.getLast?.any fun c => !isLineEnd c

/-- A text without line ends. -/
def IsLine (s : Text) : Prop := ∀ c ∈ s, isLineEnd c = false

/-- A line end in front of the rest of a text. In front of a line feed, a carriage return is
only half of one. -/
inductive EndsLine : Text → Text → Prop
  | feed (rest : Text) : EndsLine ['\n'] rest
  | pair (rest : Text) : EndsLine ['\r', '\n'] rest
  | carriage {rest : Text} (h : rest.head? ≠ some '\n') : EndsLine ['\r'] rest

/-- How a text falls into lines. -/
inductive Lined : Text → List Text → Prop
  | empty : Lined [] []
  | unended {line : Text} (hne : line ≠ []) (hline : IsLine line) : Lined line [line]
  | ended {line stop rest : Text} {lines : List Text} (hline : IsLine line)
      (hstop : EndsLine stop rest) (hrest : Lined rest lines) :
      Lined (line ++ stop ++ rest) (line :: lines)

variable {c : Char} {s t line stop rest current : Text} {lines : List Text}

theorem isLineEnd_eq_false_iff : isLineEnd c = false ↔ c ≠ '\r' ∧ c ≠ '\n' := by
  simp [isLineEnd]

theorem isLine_iff : IsLine s ↔ '\r' ∉ s ∧ '\n' ∉ s := by
  constructor
  · intro h
    constructor
    · intro hmem
      exact (isLineEnd_eq_false_iff.mp (h _ hmem)).1 rfl
    · intro hmem
      exact (isLineEnd_eq_false_iff.mp (h _ hmem)).2 rfl
  · rintro ⟨hreturn, hfeed⟩ c hc
    apply isLineEnd_eq_false_iff.mpr
    exact ⟨ne_of_mem_of_not_mem hc hreturn, ne_of_mem_of_not_mem hc hfeed⟩

theorem isLine_cons_iff : IsLine (c :: s) ↔ isLineEnd c = false ∧ IsLine s :=
  List.forall_mem_cons

theorem IsLine.reverse (h : IsLine s) : IsLine s.reverse := by
  intro c hc
  exact h c (List.mem_reverse.mp hc)

/-! ## What the splitting does -/

theorem lined_splitLinesFrom (h : IsLine current) :
    Lined (current.reverse ++ s) (splitLinesFrom current s) := by
  fun_induction splitLinesFrom current s with
  | case1 current hempty =>
    obtain rfl := List.isEmpty_iff.mp hempty
    exact .empty
  | case2 current hempty =>
    rw [List.append_nil]
    apply Lined.unended
    · simpa using hempty
    · exact h.reverse
  | case3 current rest ih =>
    have hrest : Lined rest (splitLinesFrom [] rest) := ih (by simp [IsLine])
    simpa using Lined.ended h.reverse (.pair rest) hrest
  | case4 current c rest hpair hc ih =>
    have hrest : Lined rest (splitLinesFrom [] rest) := ih (by simp [IsLine])
    have hstop : EndsLine [c] rest := by
      rcases hc with rfl | rfl
      · apply EndsLine.carriage
        intro hhead
        obtain ⟨more, rfl⟩ := List.head?_eq_some_iff.mp hhead
        exact hpair more rfl rfl
      · exact .feed rest
    simpa using Lined.ended h.reverse hstop hrest
  | case5 current c rest hpair hc ih =>
    have hcurrent : IsLine (c :: current) :=
      isLine_cons_iff.mpr ⟨isLineEnd_eq_false_iff.mpr (not_or.mp hc), h⟩
    simpa using ih hcurrent

theorem lined_splitLines (s : Text) : Lined s (splitLines s) := by
  have hempty : IsLine [] := by simp [IsLine]
  exact lined_splitLinesFrom hempty

theorem splitLinesFrom_line (h : IsLine line) (current t : Text) :
    splitLinesFrom current (line ++ t) = splitLinesFrom (line.reverse ++ current) t := by
  induction line generalizing current with
  | nil => rfl
  | cons c line ih =>
    obtain ⟨hc, hline⟩ := isLine_cons_iff.mp h
    obtain ⟨hreturn, hfeed⟩ := isLineEnd_eq_false_iff.mp hc
    rw [List.cons_append, splitLinesFrom, if_neg (not_or.mpr ⟨hreturn, hfeed⟩), ih hline]
    · simp
    · intro more hcr
      exact absurd hcr hreturn

theorem EndsLine.splitLinesFrom_append (h : EndsLine stop rest) (current : Text) :
    splitLinesFrom current (stop ++ rest) = current.reverse :: splitLines rest := by
  cases h with
  | feed =>
    rw [List.singleton_append, splitLinesFrom, if_pos (.inr rfl)]
    · rfl
    · intro more hcr
      cases hcr
  | pair => rfl
  | carriage hhead =>
    rw [List.singleton_append, splitLinesFrom, if_pos (.inl rfl)]
    · rfl
    · rintro more - rfl
      exact hhead rfl

/-- A text falls into lines in one way only, and splitting finds it. -/
theorem Lined.splitLines_eq (h : Lined s lines) : splitLines s = lines := by
  induction h with
  | empty => rfl
  | @unended line hne hline =>
    have hsplit := splitLinesFrom_line hline [] []
    rw [List.append_nil, List.append_nil] at hsplit
    rw [splitLines, hsplit, splitLinesFrom, if_neg (by simpa using hne), List.reverse_reverse]
  | @ended line stop rest lines hline hstop hrest ih =>
    rw [splitLines, List.append_assoc, splitLinesFrom_line hline, hstop.splitLinesFrom_append, ih,
      List.append_nil, List.reverse_reverse]

/-! ## What becomes of the line ends -/

theorem replacePairs_line (h : IsLine line) (t : Text) :
    replacePairs (line ++ t) = line ++ replacePairs t := by
  induction line with
  | nil => rfl
  | cons c line ih =>
    obtain ⟨hc, hline⟩ := isLine_cons_iff.mp h
    rw [List.cons_append, replacePairs, ih hline]
    · rfl
    · intro more hcr
      exact absurd hcr (isLineEnd_eq_false_iff.mp hc).1

/-- What is left of a line end is one character. -/
theorem EndsLine.replacePairs_append (h : EndsLine stop rest) :
    ∃ c, isLineEnd c = true ∧ replacePairs (stop ++ rest) = c :: replacePairs rest := by
  cases h with
  | feed =>
    refine ⟨'\n', rfl, ?_⟩
    rw [List.singleton_append, replacePairs]
    intro more hcr
    cases hcr
  | pair => exact ⟨'\n', rfl, rfl⟩
  | carriage hhead =>
    refine ⟨'\r', rfl, ?_⟩
    rw [List.singleton_append, replacePairs]
    rintro more - rfl
    exact hhead rfl

theorem EndsLine.ne_nil (h : EndsLine stop rest) : stop ≠ [] := by
  cases h <;> exact List.cons_ne_nil _ _

theorem EndsLine.isLineEnd_of_mem (h : EndsLine stop rest) (hc : c ∈ stop) :
    isLineEnd c = true := by
  cases h <;> simp only [List.mem_cons, List.not_mem_nil, or_false] at hc
  case feed => exact hc ▸ rfl
  case pair => rcases hc with rfl | rfl <;> rfl
  case carriage => exact hc ▸ rfl

theorem map_feed_of_line (h : IsLine line) :
    line.map (fun c => if c = '\r' then '\n' else c) = line := by
  have hkept : ∀ c ∈ line, (if c = '\r' then '\n' else c) = id c := by
    intro c hc
    exact if_neg (isLineEnd_eq_false_iff.mp (h c hc)).1
  rw [List.map_congr_left hkept, List.map_id]

namespace Lined

theorem isLine_of_mem (h : Lined s lines) : ∀ l ∈ lines, IsLine l := by
  induction h with
  | empty => simp
  | unended hne hline => simpa using hline
  | ended hline hstop hrest ih => exact List.forall_mem_cons.mpr ⟨hline, ih⟩

/-- Nothing but line ends is left out. -/
theorem flatten_eq (h : Lined s lines) : lines.flatten = s.filter fun c => !isLineEnd c := by
  have hkept {line : Text} (hline : IsLine line) :
      line.filter (fun c => !isLineEnd c) = line := by
    apply List.filter_eq_self.mpr
    intro c hc
    rw [hline c hc]
    rfl
  induction h with
  | empty => rfl
  | unended hne hline => simp [hkept hline]
  | @ended line stop rest lines hline hstop hrest ih =>
    have hdropped : stop.filter (fun c => !isLineEnd c) = [] := by
      apply List.filter_eq_nil_iff.mpr
      intro c hc
      simp [hstop.isLineEnd_of_mem hc]
    rw [List.flatten_cons, ih, List.filter_append, List.filter_append, hkept hline, hdropped,
      List.append_nil]

/-- A text with other line ends falls into the same lines. -/
theorem withFeeds (h : Lined s lines) : Lined (Text.withFeeds s) lines := by
  induction h with
  | empty => exact .empty
  | @unended line hne hline =>
    have hsame : Text.withFeeds line = line := by
      have hpairs := replacePairs_line hline []
      rw [List.append_nil] at hpairs
      rw [Text.withFeeds, hpairs, replacePairs, List.append_nil, map_feed_of_line hline]
    rw [hsame]
    exact .unended hne hline
  | @ended line stop rest lines hline hstop hrest ih =>
    obtain ⟨c, hc, hreplace⟩ := hstop.replacePairs_append
    have hfeed : (if c = '\r' then '\n' else c) = '\n' := by
      split
      · rfl
      · rename_i hne
        simpa [isLineEnd, hne] using hc
    have hsame : Text.withFeeds (line ++ stop ++ rest) = line ++ ['\n'] ++ Text.withFeeds rest := by
      rw [Text.withFeeds, List.append_assoc, replacePairs_line hline, hreplace, List.map_append,
        map_feed_of_line hline, List.map_cons, hfeed]
      simp [Text.withFeeds]
    rw [hsame]
    exact .ended hline (.feed _) ih

/-- The line ends are counted by the lines, up to a last line that has no end. -/
theorem length_eq (h : Lined s lines) :
    lines.length = lineEnds s + if goesOn s then 1 else 0 := by
  have hnone {line : Text} (hline : IsLine line) : line.countP isLineEnd = 0 := by
    apply List.countP_eq_zero.mpr
    intro c hc
    simp [hline c hc]
  induction h with
  | empty => rfl
  | @unended line hne hline =>
    have hpairs := replacePairs_line hline []
    rw [List.append_nil, replacePairs, List.append_nil] at hpairs
    have hlast : goesOn line = true := by
      rw [goesOn, List.getLast?_eq_some_getLast hne, Option.any_some,
        hline _ (List.getLast_mem hne)]
      rfl
    rw [lineEnds, hpairs, hnone hline, hlast]
    rfl
  | @ended line stop rest lines hline hstop hrest ih =>
    obtain ⟨c, hc, hreplace⟩ := hstop.replacePairs_append
    have hcount : lineEnds (line ++ stop ++ rest) = lineEnds rest + 1 := by
      rw [lineEnds, List.append_assoc, replacePairs_line hline, hreplace, List.countP_append,
        hnone hline, List.countP_cons_of_pos hc]
      simp [lineEnds]
    have hopen : goesOn (line ++ stop ++ rest) = goesOn rest := by
      by_cases hempty : rest = []
      · obtain ⟨front, d, rfl⟩ := (List.eq_nil_or_concat stop).resolve_left hstop.ne_nil
        have hd : isLineEnd d = true := hstop.isLineEnd_of_mem (by simp)
        simp [goesOn, hempty, hd]
      · rw [goesOn, goesOn, List.getLast?_append_of_ne_nil _ hempty]
    rw [List.length_cons, ih, hcount, hopen]
    omega

end Lined

/-- Lines with line ends of one kind between them. -/
theorem lined_join {stop : Text} {lines : List Text}
    (hstop : stop ∈ [['\n'], ['\r', '\n'], ['\r']]) (hlines : ∀ l ∈ lines, IsLine l)
    (hlast : ∀ l ∈ lines.getLast?, l ≠ []) : Lined (join stop lines) lines := by
  match lines with
  | [] => exact .empty
  | [p] => exact .unended (hlast p rfl) (hlines p (by simp))
  | p :: q :: more =>
    rw [List.forall_mem_cons] at hlines
    have hmore : Lined (join stop (q :: more)) (q :: more) :=
      lined_join hstop hlines.2 (by simpa using hlast)
    apply Lined.ended hlines.1 ?_ hmore
    simp only [List.mem_cons, List.not_mem_nil, or_false] at hstop
    rcases hstop with rfl | rfl | rfl
    · exact .feed _
    · exact .pair _
    · -- A line feed behind a carriage return would be one of a line.
      apply EndsLine.carriage
      intro hhead
      rcases mem_join (List.mem_of_head? hhead) with hmem | ⟨l, hl, hmem⟩
      · cases List.mem_singleton.mp hmem
      · exact (isLine_iff.mp (hlines.2 l hl)).2 hmem

/-- Splitting a text into lines loses the line ends and nothing else, and does not tell them
apart: no line has one in it, the lines one behind the other are the text without its line
ends, and they stay the same if every pair and then every carriage return becomes a line feed.
There is a line for each line end, where a pair counts once, and one more for a text that goes
on behind the last of them. Lines whose last one is not empty come back if they are joined by
line ends of any of the three kinds. -/
theorem splitLines_lossless :
    (∀ s : Text,
      (∀ line ∈ splitLines s, '\r' ∉ line ∧ '\n' ∉ line) ∧
      (splitLines s).flatten = s.filter (fun c => !isLineEnd c) ∧
      splitLines (withFeeds s) = splitLines s ∧
      (splitLines s).length = lineEnds s + if goesOn s then 1 else 0) ∧
    ∀ lines : List Text, (∀ line ∈ lines, '\r' ∉ line ∧ '\n' ∉ line) →
      (∀ last ∈ lines.getLast?, last ≠ []) →
      ∀ stop ∈ [['\n'], ['\r', '\n'], ['\r']], splitLines (join stop lines) = lines := by
  constructor
  · intro s
    have hlined := lined_splitLines s
    refine ⟨?_, hlined.flatten_eq, hlined.withFeeds.splitLines_eq, hlined.length_eq⟩
    intro line hline
    exact isLine_iff.mp (hlined.isLine_of_mem line hline)
  · intro lines hlines hlast stop hstop
    have hplain : ∀ line ∈ lines, IsLine line := by
      intro line hline
      exact isLine_iff.mpr (hlines line hline)
    exact (lined_join hstop hplain hlast).splitLines_eq

example : splitLines "a\r\n\rb\n".toList = ["a".toList, [], "b".toList] := by decide

theorem splitLines_lossless_blank :
    let lines := ["a".toList, [], "b".toList]
    (∀ line ∈ lines, '\r' ∉ line ∧ '\n' ∉ line) ∧ (∀ last ∈ lines.getLast?, last ≠ []) ∧
      ['\r'] ∈ [['\n'], ['\r', '\n'], ['\r']] ∧ splitLines (join ['\r'] lines) = lines := by
  intro lines
  have hlines : ∀ line ∈ lines, '\r' ∉ line ∧ '\n' ∉ line := by decide
  have hlast : ∀ last ∈ lines.getLast?, last ≠ [] := by decide
  have hstop : ['\r'] ∈ [['\n'], ['\r', '\n'], ['\r']] := by decide
  exact ⟨hlines, hlast, hstop, splitLines_lossless.2 lines hlines hlast ['\r'] hstop⟩

end PhpLint.Text
