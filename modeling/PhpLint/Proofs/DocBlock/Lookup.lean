import PhpLint.DocBlock.Lookup

/-!
Where a doc comment stands. `Above` says, line by line, which lines of a file make up
the doc comment that is found for a declaration, and which lines lie between the two.
Two declarations can see the same comment in two ways only: the lines down to the
later one are all passed over, or the earlier one stands on the last line of the
comment that is found for the later one.
-/

namespace PhpLint.DocBlock

section Place

/-- The lines between which a doc comment stands. -/
def span (d : DocBlock) : Nat × Nat := (d.startLine, d.endLine)

/-- Where a doc comment stands, and its text as it is written. -/
def place (d : DocBlock) : (Nat × Nat) × Text := (d.span, d.raw)

theorem place_addTag (d : DocBlock) (tag : Tag) : (addTag d tag).place = d.place := by
  unfold addTag
  repeat' split
  all_goals rfl

theorem place_flush (r : Reading) : r.flush.doc.place = r.doc.place := by
  unfold Reading.flush
  split
  · exact place_addTag _ _
  · rfl

theorem place_addText (r : Reading) (line : Text) : (r.addText line).doc.place = r.doc.place := by
  unfold Reading.addText
  repeat' split
  all_goals rfl

theorem place_step (r : Reading) (rawLine : Text) : (r.step rawLine).doc.place = r.doc.place := by
  unfold Reading.step
  split
  · exact place_flush r
  · split
    · exact place_flush r
    · exact place_addText r _

theorem place_foldl (rawLines : List Text) (r : Reading) :
    (rawLines.foldl Reading.step r).doc.place = r.doc.place := by
  induction rawLines generalizing r with
  | nil => rfl
  | cons rawLine rawLines ih => rw [List.foldl_cons, ih, place_step]

theorem place_parse (raw : Text) (first last : Nat) :
    (parse raw first last).place = ((first, last), raw) :=
  (place_flush _).trans (place_foldl _ _)

theorem span_parse (raw : Text) (first last : Nat) : (parse raw first last).span = (first, last) :=
  congrArg Prod.fst (place_parse raw first last)

end Place

/-- The doc comment that is found above a line: it starts on one line and ends on
another, has lines of a comment between them, and only lines that are passed over
behind it. Lines are counted from one, so the line `k + 1` has the index `k`. -/
structure Above (lines : List Text) (line : Nat) (d : DocBlock) : Prop where
  start_pos : 1 ≤ d.startLine
  start_le : d.startLine ≤ d.endLine
  end_lt : d.endLine < line
  first : ∃ raw, lines[d.startLine - 1]? = some raw ∧ startsBlock raw = true
  later : ∀ k raw, d.startLine ≤ k → k < d.endLine → lines[k]? = some raw →
    startsBlock raw = false
  inner : ∀ k raw, d.startLine ≤ k → k + 1 < d.endLine → lines[k]? = some raw →
    isInner raw = true
  last : ∃ raw, lines[d.endLine - 1]? = some raw ∧ endsBlock raw = true ∧ isSkipped raw = false
  passed : ∀ k raw, d.endLine ≤ k → k + 1 < line → lines[k]? = some raw → isSkipped raw = true

theorem linesUpTo_eq_some {above block : List Text} (h : linesUpTo above = some block) :
    ∃ inner first rest, block = inner ++ [first] ∧ above = inner ++ first :: rest ∧
      startsBlock first = true ∧ ∀ l ∈ inner, startsBlock l = false ∧ isInner l = true := by
  induction above generalizing block with
  | nil => simp [linesUpTo] at h
  | cons line above ih =>
    rw [linesUpTo] at h
    split at h
    · rename_i hstarts
      obtain rfl := Option.some.inj h
      exact ⟨[], line, above, rfl, rfl, hstarts, by simp⟩
    · rename_i hstarts
      split at h
      · rename_i hinner
        obtain ⟨block', hblock', rfl⟩ := Option.map_eq_some_iff.mp h
        obtain ⟨inner, first, rest, rfl, rfl, hfirst, hall⟩ := ih hblock'
        refine ⟨line :: inner, first, rest, rfl, rfl, hfirst, ?_⟩
        intro l hl
        rcases List.mem_cons.mp hl with rfl | hmem
        · exact ⟨by simpa using hstarts, hinner⟩
        · exact hall l hmem
      · simp at h

/-- The lines of a block, from its first one to its last one. -/
structure IsBlock (first : Text) (later : List Text) : Prop where
  starts : startsBlock first = true
  starts_once : ∀ l ∈ later, startsBlock l = false
  inner : ∀ l ∈ later.dropLast, isInner l = true
  ends : ∀ l ∈ (first :: later).getLast?, endsBlock l = true

theorem isBlock_of_blockLines? {above block : List Text} (h : blockLines? above = some block) :
    ∃ first later rest, block = (first :: later).reverse ∧ above = block ++ rest ∧
      IsBlock first later := by
  cases above with
  | nil => simp [blockLines?] at h
  | cons last above =>
    rw [blockLines?] at h
    split at h
    · simp at h
    · rename_i hends
      have hends : endsBlock last = true := by simpa using hends
      split at h
      · rename_i hstarts
        split at h
        · simp at h
        · obtain rfl := Option.some.inj h
          exact ⟨last, [], above, rfl, rfl, hstarts, by simp, by simp, by simpa using hends⟩
      · rename_i hstarts
        obtain ⟨block', hblock', rfl⟩ := Option.map_eq_some_iff.mp h
        obtain ⟨inner, first, rest, rfl, rfl, hfirst, hall⟩ := linesUpTo_eq_some hblock'
        refine ⟨first, inner.reverse ++ [last], rest, by simp, by simp, hfirst, ?_, ?_, ?_⟩
        · intro l hl
          rcases List.mem_append.mp hl with hmem | hmem
          · exact (hall l (List.mem_reverse.mp hmem)).1
          · obtain rfl := List.mem_singleton.mp hmem
            simpa using hstarts
        · intro l hl
          rw [List.dropLast_concat] at hl
          exact (hall l (List.mem_reverse.mp hl)).2
        · rw [← List.cons_append, List.getLast?_concat]
          simpa using hends

/-- The lines above a declaration in order: what is above the block, the block, and what is
passed over. -/
theorem exists_block_of_above? {lines : List Text} {line : Nat} {d : DocBlock}
    (h : above? lines line = some d) :
    ∃ front first later gap, lines.take (line - 1) = front ++ (first :: later) ++ gap ∧
      IsBlock first later ∧ (∀ l ∈ (first :: later).getLast?, isSkipped l = false) ∧
      (∀ l ∈ gap, isSkipped l = true) ∧
      d.span = (front.length + 1, front.length + 1 + later.length) := by
  obtain ⟨block, hblock, rfl⟩ := Option.map_eq_some_iff.mp h
  obtain ⟨first, later, rest, rfl, habove, hlines⟩ := isBlock_of_blockLines? hblock
  have hnot := List.head?_dropWhile_not isSkipped (lines.take (line - 1)).reverse
  have htake :=
    List.takeWhile_append_dropWhile (p := isSkipped) (l := (lines.take (line - 1)).reverse)
  have hgap : ∀ l ∈ (lines.take (line - 1)).reverse.takeWhile isSkipped, isSkipped l = true :=
    List.all_eq_true.mp List.all_takeWhile
  rw [habove] at hnot htake
  refine ⟨rest.reverse, first, later, _, ?_, hlines, ?_,
    fun l hl => hgap l (List.mem_reverse.mp hl), ?_⟩
  · have hreversed := congrArg List.reverse htake
    simpa only [List.reverse_append, List.reverse_reverse] using hreversed.symm
  · intro l hl
    rw [List.head?_append, List.head?_reverse, Option.mem_def.mp hl] at hnot
    simpa using hnot
  · rw [span_parse, habove]
    simp only [List.length_append, List.length_reverse, List.length_cons, Prod.mk.injEq]
    omega

theorem above_of_above? {lines : List Text} {line : Nat} {d : DocBlock}
    (h : above? lines line = some d) : Above lines line d := by
  obtain ⟨front, first, later, gap, htake, hblock, hused, hgap, hspan⟩ := exists_block_of_above? h
  obtain ⟨hstart, hend⟩ := Prod.mk.inj hspan
  have hfile : lines = front ++ ((first :: later) ++ (gap ++ lines.drop (line - 1))) := by
    rw [← List.append_assoc, ← List.append_assoc, ← htake, List.take_append_drop]
  have hcount := congrArg List.length htake
  simp only [List.length_append, List.length_cons, List.length_take] at hcount
  generalize lines.drop (line - 1) = tail at hfile
  have hblock? (k : Nat) (hge : d.startLine ≤ k + 1) (hlt : k < d.endLine) :
      lines[k]? = (first :: later)[k + 1 - d.startLine]? := by
    have hk : k - front.length = k + 1 - d.startLine := by omega
    rw [hfile, List.getElem?_append_right (by omega), hk,
      List.getElem?_append_left (by simp only [List.length_cons]; omega)]
  have hlater? (k : Nat) (hge : d.startLine ≤ k) (hlt : k < d.endLine) :
      lines[k]? = later[k - d.startLine]? := by
    rw [hblock? k (by omega) hlt, Nat.sub_add_comm hge, List.getElem?_cons_succ]
  obtain ⟨last, hlast⟩ : ∃ last, (first :: later).getLast? = some last :=
    ⟨_, List.getLast?_eq_some_getLast (List.cons_ne_nil first later)⟩
  refine ⟨by omega, by omega, by omega, ⟨first, ?_, hblock.starts⟩, ?_, ?_,
    ⟨last, ?_, hblock.ends last hlast, hused last hlast⟩, ?_⟩
  · rw [hblock? _ (by omega) (by omega), Nat.sub_add_cancel (by omega), Nat.sub_self,
      List.getElem?_cons_zero]
  · intro k raw hge hlt hraw
    rw [hlater? k hge hlt] at hraw
    exact hblock.starts_once raw (List.mem_of_getElem? hraw)
  · intro k raw hge hlt hraw
    rw [hlater? k hge (by omega)] at hraw
    apply hblock.inner
    apply List.mem_of_getElem? (i := k - d.startLine)
    rw [List.getElem?_dropLast, if_pos (by omega), hraw]
  · rw [hblock? _ (by omega) (by omega), ← hlast, List.getLast?_eq_getElem?, List.length_cons]
    congr 1
    omega
  · intro k raw hge hlt hraw
    have hlines : k < lines.length := (List.getElem?_eq_some_iff.mp hraw).1
    rw [hfile, List.getElem?_append_right (by omega),
      List.getElem?_append_right (by simp only [List.length_cons]; omega),
      List.getElem?_append_left (by simp only [List.length_cons]; omega)] at hraw
    exact hgap raw (List.mem_of_getElem? hraw)

/-- Where every line between two declarations is passed over, they see the same. -/
theorem above?_eq_of_passed {lines : List Text} {line line' : Nat} (hpos : 1 ≤ line)
    (hle : line ≤ line') (hpassed : ∀ k raw, line ≤ k + 1 → k + 1 < line' →
      lines[k]? = some raw → isSkipped raw = true) :
    above? lines line' = above? lines line := by
  have htake : lines.take (line' - 1) =
      lines.take (line - 1) ++ (lines.drop (line - 1)).take (line' - line) := by
    rw [← List.take_add]
    congr 1
    omega
  have hall : ∀ l ∈ ((lines.drop (line - 1)).take (line' - line)).reverse, isSkipped l = true := by
    intro l hl
    obtain ⟨k, hk⟩ := List.mem_iff_getElem?.mp (List.mem_reverse.mp hl)
    rw [List.getElem?_take, Option.ite_none_right_eq_some, List.getElem?_drop] at hk
    exact hpassed (line - 1 + k) l (by omega) (by omega) hk.2
  rw [above?, above?, htake, List.reverse_append, List.dropWhile_append_of_pos hall]

/-- The two ways in which a declaration on a line sees lines of the doc comment `d` of
a declaration further up. Either the line of that declaration starts with an attribute
and is passed over, and `d` is seen a second time; or that line ends a comment, and is
taken to be the last line of the block that starts as `d` does. -/
def SeenPast (lines : List Text) (line : Nat) (d d' : DocBlock) : Prop :=
  ∃ raw, lines[line - 1]? = some raw ∧
    ((['#', '['].isPrefixOf (Text.trim raw) = true ∧ d' = d) ∨
      (endsBlock raw = true ∧ startsBlock raw = false ∧ d'.startLine = d.startLine ∧
        d'.endLine = line))

/-- Doc comments that share a line are seen past the declaration further up, if that
one's line is neither blank nor starts with an asterisk. -/
theorem seenPast_of_overlap {lines : List Text} {line line' : Nat} {d d' : DocBlock} {raw : Text}
    (h : above? lines line = some d) (h' : above? lines line' = some d') (hlt : line < line')
    (hraw : lines[line - 1]? = some raw) (hinner : isInner raw = false)
    (hoverlap : d'.startLine ≤ d.endLine) (hoverlap' : d.startLine ≤ d'.endLine) :
    SeenPast lines line d d' := by
  have a := above_of_above? h
  have a' := above_of_above? h'
  have hpos : 1 ≤ line := by
    have := a.end_lt
    omega
  refine ⟨raw, hraw, ?_⟩
  by_cases hend : d'.endLine < line
  · left
    have hskipped : isSkipped raw = true := a'.passed (line - 1) raw (by omega) (by omega) hraw
    refine ⟨?_, ?_⟩
    · simp only [isSkipped, isInner, Bool.or_eq_true, Bool.or_eq_false_iff] at hskipped hinner
      exact hskipped.resolve_left (by simp [hinner.1])
    · have hsame := above?_eq_of_passed hpos (Nat.le_of_lt hlt) (fun k l hk hk' hl =>
        a'.passed k l (by omega) hk' hl)
      rw [h, h'] at hsame
      exact Option.some.inj hsame
  · right
    have hbefore := a.end_lt
    have hlast : ¬ line < d'.endLine := by
      intro hbelow
      have h := a'.inner (line - 1) raw (by omega) (by omega) hraw
      rw [hinner] at h
      cases h
    have hlast : d'.endLine = line := by omega
    obtain ⟨l, hl, hends, -⟩ := a'.last
    rw [hlast, hraw, Option.some.injEq] at hl
    have hnot := a'.later (line - 1) raw (by omega) (by omega) hraw
    refine ⟨hl ▸ hends, hnot, ?_, hlast⟩
    -- Neither block goes on above the line on which the other one starts.
    obtain ⟨first, hfirst, hstarts⟩ := a.first
    obtain ⟨first', hfirst', hstarts'⟩ := a'.first
    have hstart := a.start_pos
    have hstart' := a'.start_pos
    have hle := a.start_le
    rcases Nat.lt_trichotomy d'.startLine d.startLine with hup | hsame | hdown
    · have h := a'.later (d.startLine - 1) first (by omega) (by omega) hfirst
      rw [hstarts] at h
      cases h
    · exact hsame
    · have h := a.later (d'.startLine - 1) first' (by omega) (by omega) hfirst'
      rw [hstarts'] at h
      cases h

end PhpLint.DocBlock
