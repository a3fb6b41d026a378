import PhpLint.DocBlock.Lookup

/-!
The search for a doc comment by line numbers. A line that is read, and the range of
lines that makes up the comment, may be out of bounds; the outer `none` is such a
failure. Main statement: above a line of the file, or just behind its last one, the
search never fails and finds what the search on lists finds.
-/

namespace PhpLint

namespace Checked

/-- The last of the first lines that is not passed over. -/
def lastAbove? (lines : List Text) : Nat → Option Nat
  | 0 => none
  | count + 1 =>
    match lines[count]? with
    | none => none
    | some line => if DocBlock.isSkipped line then lastAbove? lines count else some count

/-- The first line of a block whose last line comes behind the given number of lines. -/
def blockStart? (lines : List Text) : Nat → Option (Option Nat)
  | 0 => some none
  | count + 1 => do
    let line ← lines[count]?
    if DocBlock.startsBlock line then return some count
    else if DocBlock.isInner line then blockStart? lines count
    else return none

/-- The lines from one to another, both counted from zero. -/
def lineRange? (lines : List Text) (start stop : Nat) : Option (List Text) :=
  if start ≤ stop + 1 ∧ stop < lines.length then some ((lines.take (stop + 1)).drop start)
  else none

/-- The doc comment that starts and ends on two lines. -/
def blockAt? (lines : List Text) (start stop : Nat) : Option (Option DocBlock) := do
  let block ← lineRange? lines start stop
  return some (DocBlock.parse (Text.join ['\n'] block) (start + 1) (stop + 1))

/-- The doc comment that ends on a line. -/
def blockEndingAt? (lines : List Text) (stop : Nat) : Option (Option DocBlock) := do
  let last ← lines[stop]?
  if !DocBlock.endsBlock last then return none
  else if DocBlock.startsBlock last then
    if Text.trim last = "/**/".toList then return none else blockAt? lines stop stop
  else
    match ← blockStart? lines stop with
    | none => return none
    | some start => blockAt? lines start stop

/-- The doc comment above a line, counted from one. -/
def above? (lines : List Text) (line : Nat) : Option (Option DocBlock) :=
  match lastAbove? lines (line - 1) with
  | none => some none
  | some stop => blockEndingAt? lines stop

/-- The lines above an index, nearest first. -/
def upFrom (lines : List Text) (count : Nat) : List Text := (lines.take count).reverse

theorem upFrom_succ {lines : List Text} {count : Nat} (h : count < lines.length) :
    upFrom lines (count + 1) = lines[count] :: upFrom lines count := by
  rw [upFrom, List.take_succ_eq_append_getElem h, List.reverse_append]
  rfl

theorem length_upFrom {lines : List Text} {count : Nat} (h : count ≤ lines.length) :
    (upFrom lines count).length = count := by
  simp [upFrom, h]

/-- The line that the search stops at is the nearest that is not passed over. -/
theorem lastAbove?_eq {lines : List Text} {count : Nat} (h : count ≤ lines.length) :
    (lastAbove? lines count = none ∧ (upFrom lines count).dropWhile DocBlock.isSkipped = []) ∨
    ∃ stop < lines.length, lastAbove? lines count = some stop ∧
      (upFrom lines count).dropWhile DocBlock.isSkipped = upFrom lines (stop + 1) := by
  induction count with
  | zero => exact .inl ⟨rfl, rfl⟩
  | succ count ih =>
    have hlt : count < lines.length := h
    rw [lastAbove?, List.getElem?_eq_getElem hlt, upFrom_succ hlt]
    by_cases hskipped : DocBlock.isSkipped lines[count] = true
    · simpa [hskipped] using ih (Nat.le_of_lt hlt)
    · refine .inr ⟨count, hlt, ?_, ?_⟩
      · simp [hskipped]
      · rw [upFrom_succ hlt, List.dropWhile_cons_of_neg hskipped]

/-- A search for the start of a block stays in bounds, and the block is what lies
between its start and the place where the search began. -/
theorem blockStart?_eq {lines : List Text} {count : Nat} (h : count ≤ lines.length) :
    (blockStart? lines count = some none ∧ DocBlock.linesUpTo (upFrom lines count) = none) ∨
    ∃ start < count, blockStart? lines count = some (some start) ∧
      DocBlock.linesUpTo (upFrom lines count) = some ((lines.take count).drop start).reverse := by
  induction count with
  | zero => exact .inl ⟨rfl, rfl⟩
  | succ count ih =>
    have hlt : count < lines.length := h
    rw [blockStart?, List.getElem?_eq_getElem hlt, upFrom_succ hlt, DocBlock.linesUpTo,
      List.take_succ_eq_append_getElem hlt]
    have hlength : (lines.take count).length = count := by simp [Nat.le_of_lt hlt]
    by_cases hstarts : DocBlock.startsBlock lines[count] = true
    · refine .inr ⟨count, Nat.lt_succ_self count, by simp [hstarts], ?_⟩
      rw [if_pos hstarts, List.drop_left' hlength]
      rfl
    · by_cases hinner : DocBlock.isInner lines[count] = true
      · rcases ih (Nat.le_of_lt hlt) with ⟨hnone, hlines⟩ | ⟨start, hstart, hsome, hlines⟩
        · exact .inl (by simp [hstarts, hinner, hnone, hlines])
        · refine .inr ⟨start, Nat.lt_succ_of_lt hstart, by simp [hstarts, hinner, hsome], ?_⟩
          rw [if_neg hstarts, if_pos hinner, hlines,
            List.drop_append_of_le_length (by omega), List.reverse_append]
          rfl
      · exact .inl (by simp [hstarts, hinner])

theorem blockAt?_eq {lines : List Text} {start stop : Nat} (hstart : start ≤ stop)
    (hstop : stop < lines.length) :
    blockAt? lines start stop =
      some (some (DocBlock.parse (Text.join ['\n'] ((lines.take (stop + 1)).drop start))
        (start + 1) (stop + 1))) := by
  rw [blockAt?, lineRange?, if_pos ⟨by omega, hstop⟩]
  rfl

theorem blockEndingAt?_eq {lines : List Text} {stop : Nat} (h : stop < lines.length) :
    blockEndingAt? lines stop =
      some ((DocBlock.blockLines? (upFrom lines (stop + 1))).map fun block =>
        DocBlock.parse (Text.join ['\n'] block.reverse) (stop + 1 - block.length + 1)
          (stop + 1)) := by
  rw [blockEndingAt?, List.getElem?_eq_getElem h, upFrom_succ h, DocBlock.blockLines?]
  have hlength : (lines.take stop).length = stop := by simp [Nat.le_of_lt h]
  by_cases hends : DocBlock.endsBlock lines[stop] = true
  · by_cases hstarts : DocBlock.startsBlock lines[stop] = true
    · by_cases hempty : Text.trim lines[stop] = "/**/".toList
      · simp [hends, hstarts, hempty]
      · have hblock := blockAt?_eq (Nat.le_refl stop) h
        rw [List.take_succ_eq_append_getElem h, List.drop_left' hlength] at hblock
        have hlong : Text.trim lines[stop] ≠ ['/', '*', '*', '/'] := hempty
        simpa [hends, hstarts, hlong] using hblock
    · rcases blockStart?_eq (Nat.le_of_lt h) with ⟨hnone, hlines⟩ | ⟨start, hstart, hsome, hlines⟩
      · simp [hends, hstarts, hnone, hlines]
      · have hblock := blockAt?_eq (Nat.le_of_lt hstart) h
        rw [List.take_succ_eq_append_getElem h,
          List.drop_append_of_le_length (by omega)] at hblock
        have hcount : stop + 1 - (stop - start + 1) = start := by omega
        simp [hends, hstarts, hsome, hlines, hblock, Nat.le_of_lt h, hcount]
  · simp [hends]

theorem above?_eq {lines : List Text} {line : Nat} (h : line ≤ lines.length + 1) :
    above? lines line = some (DocBlock.above? lines line) := by
  have hcount : line - 1 ≤ lines.length := by omega
  have habove (above : List Text) (hlines : (upFrom lines (line - 1)).dropWhile
      DocBlock.isSkipped = above) : DocBlock.above? lines line =
        (DocBlock.blockLines? above).map fun block =>
          DocBlock.parse (Text.join ['\n'] block.reverse) (above.length - block.length + 1)
            above.length := by
    rw [← hlines]
    rfl
  rw [above?]
  rcases lastAbove?_eq hcount with ⟨hnone, hlines⟩ | ⟨stop, hstop, hsome, hlines⟩
  · simp [hnone, habove _ hlines, DocBlock.blockLines?]
  · rw [habove _ hlines, length_upFrom hstop, hsome]
    exact blockEndingAt?_eq hstop

end Checked

end PhpLint
