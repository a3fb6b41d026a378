import Mathlib.Order.Bounds.Basic
import PhpLint.Proofs.Checked.DocBlock
import PhpLint.Proofs.SourceModel.Documented

/-!
Which doc comment a declaration has. The last line above it that is neither blank nor an
attribute has to end the comment, and either starts it too or has nothing between itself and
the start but lines that are blank or go on with an asterisk. Main statement: a declaration has
a doc comment if there are such lines, and it is those lines as they are written.
-/

namespace PhpLint

namespace DocBlock

/-- A line of a file, counted from one, which has a property without the blanks around it. -/
def LineIs (lines : List Text) (n : Nat) (p : Text → Prop) : Prop :=
  ∃ k raw, n = k + 1 ∧ lines[k]? = some raw ∧ p (Text.trim raw)

/-- A comment that ends on one line starts on another: on the same one, where more than its
two marks is written, or further up, with no other text in between. -/
def StartsOn (lines : List Text) (last first : Nat) : Prop :=
  (first = last ∧ LineIs lines last fun s => "/**".toList <+: s ∧ s ≠ "/**/".toList) ∨
    (LineIs lines last fun s => ¬ "/**".toList <+: s) ∧ first < last ∧
      (LineIs lines first fun s => "/**".toList <+: s) ∧
      ∀ n, first < n → n < last → LineIs lines n fun s => s = [] ∨ "*".toList <+: s

/-- The lines on which a doc comment above a line starts and ends. -/
structure CommentAbove (lines : List Text) (line first last : Nat) : Prop where
  last_used : IsGreatest
    {n | n < line ∧ LineIs lines n fun s => ¬(s = [] ∨ "#[".toList <+: s)} last
  ends : LineIs lines last fun s => "*/".toList <:+ s
  starts : StartsOn lines last first

section Lines

variable {lines : List Text} {n line first last : Nat} {raw : Text}

theorem isSkipped_iff :
    isSkipped raw = true ↔ Text.trim raw = [] ∨ "#[".toList <+: Text.trim raw := by
  simp [isSkipped]

theorem startsBlock_iff : startsBlock raw = true ↔ "/**".toList <+: Text.trim raw := by
  simp [startsBlock]

theorem endsBlock_iff : endsBlock raw = true ↔ "*/".toList <:+ Text.trim raw := by
  rw [endsBlock, Option.isSome_iff_exists]
  simp only [Text.stripEnd?_eq_some_iff]
  exact exists_congr fun front => eq_comm

theorem isInner_iff_trim :
    isInner raw = true ↔ Text.trim raw = [] ∨ "*".toList <+: Text.trim raw := by
  cases h : Text.trim raw with
  | nil => simp [isInner, h]
  | cons c s =>
    have hstar : '*' = c ↔ c = '*' := eq_comm
    simp [isInner, h, hstar]

theorem not_startsBlock_of_isInner (h : isInner raw = true) : startsBlock raw = false := by
  by_contra hstarts
  rw [Bool.not_eq_false, startsBlock_iff] at hstarts
  obtain ⟨rest, hrest⟩ := hstarts
  rw [isInner_iff_trim, ← hrest] at h
  simp at h

theorem lineIs_iff {p : Text → Prop} (h : n < lines.length) :
    LineIs lines (n + 1) p ↔ p (Text.trim lines[n]) := by
  simp [LineIs, h]

/-- The lines of a block, found from its last one up. -/
theorem linesUpTo_eq_some_iff {count : Nat} (hcount : count ≤ lines.length) {block : List Text} :
    linesUpTo (Checked.upFrom lines count) = some block ↔
      ∃ start < count, (LineIs lines (start + 1) fun s => "/**".toList <+: s) ∧
        (∀ n, start + 1 < n → n ≤ count → LineIs lines n fun s => s = [] ∨ "*".toList <+: s) ∧
        block = ((lines.take count).drop start).reverse := by
  induction count generalizing block with
  | zero => simp [Checked.upFrom, linesUpTo]
  | succ count ih =>
    have hlt : count < lines.length := hcount
    have hlength : (lines.take count).length = count := by simp [Nat.le_of_lt hlt]
    have htake := List.take_succ_eq_append_getElem hlt
    have hlast : (LineIs lines (count + 1) fun s => "/**".toList <+: s) ↔
        startsBlock lines[count] = true := by rw [lineIs_iff hlt, startsBlock_iff]
    have hinner : (LineIs lines (count + 1) fun s => s = [] ∨ "*".toList <+: s) ↔
        isInner lines[count] = true := by rw [lineIs_iff hlt, isInner_iff_trim]
    rw [Checked.upFrom_succ hlt, linesUpTo]
    constructor
    · intro h
      split at h
      · rename_i hstarts
        refine ⟨count, Nat.lt_succ_self count, hlast.mpr hstarts, by omega, ?_⟩
        rw [htake, List.drop_left' hlength]
        exact (Option.some.inj h).symm
      · split at h
        · rename_i hmore
          obtain ⟨above, habove, rfl⟩ := Option.map_eq_some_iff.mp h
          obtain ⟨start, hstart, hfirst, hbetween, rfl⟩ := (ih (Nat.le_of_lt hlt)).mp habove
          refine ⟨start, Nat.lt_succ_of_lt hstart, hfirst, fun n hn hle => ?_, ?_⟩
          · rcases Nat.le_succ_iff.mp hle with hle | rfl
            · exact hbetween n hn hle
            · exact hinner.mpr hmore
          · rw [htake, List.drop_append_of_le_length (by omega), List.reverse_append]
            rfl
        · cases h
    · rintro ⟨start, hstart, hfirst, hbetween, rfl⟩
      rcases Nat.lt_succ_iff_lt_or_eq.mp hstart with hbefore | rfl
      · have hmore := hinner.mp (hbetween (count + 1) (by omega) (Nat.le_refl _))
        have habove := (ih (Nat.le_of_lt hlt)).mpr
          ⟨start, hbefore, hfirst, fun n hn hle => hbetween n hn (by omega), rfl⟩
        rw [if_neg (by simp [not_startsBlock_of_isInner hmore]), if_pos hmore, habove, htake,
          List.drop_append_of_le_length (by omega), List.reverse_append]
        rfl
      · rw [if_pos (hlast.mp hfirst), htake, List.drop_left' hlength]
        rfl

/-- The lines of the block that ends on a line. -/
theorem blockLines?_eq_some_iff {stop : Nat} (hstop : stop < lines.length) {block : List Text} :
    blockLines? (Checked.upFrom lines (stop + 1)) = some block ↔
      (LineIs lines (stop + 1) fun s => "*/".toList <:+ s) ∧
        ∃ start ≤ stop, StartsOn lines (stop + 1) (start + 1) ∧
          block = ((lines.take (stop + 1)).drop start).reverse := by
  have hlength : (lines.take stop).length = stop := by simp [Nat.le_of_lt hstop]
  have htake := List.take_succ_eq_append_getElem hstop
  rw [lineIs_iff hstop, ← endsBlock_iff, Checked.upFrom_succ hstop, blockLines?]
  cases hends : endsBlock lines[stop] with
  | false => simp
  | true =>
    simp only [StartsOn, lineIs_iff hstop, ← startsBlock_iff, Bool.not_true, Bool.false_eq_true,
      if_false, true_and]
    cases hstarts : startsBlock lines[stop] with
    | true =>
      have hself : (lines.take (stop + 1)).drop stop = [lines[stop]] := by
        rw [htake, List.drop_left' hlength]
      rw [if_pos rfl]
      constructor
      · intro h
        split at h
        · cases h
        · rename_i hmarks
          exact ⟨stop, Nat.le_refl stop, .inl ⟨rfl, rfl, hmarks⟩, by rw [hself]; exact
            (Option.some.inj h).symm⟩
      · rintro ⟨start, -, ⟨hsame, -, hmarks⟩ | ⟨hnot, -⟩, rfl⟩
        · obtain rfl := Nat.succ.inj hsame
          rw [if_neg hmarks, hself]
          rfl
        · exact absurd rfl hnot
    | false =>
      rw [if_neg (by simp), Option.map_eq_some_iff]
      constructor
      · rintro ⟨above, habove, rfl⟩
        obtain ⟨start, hstart, hfirst, hbetween, rfl⟩ :=
          (linesUpTo_eq_some_iff (Nat.le_of_lt hstop)).mp habove
        refine ⟨start, Nat.le_of_lt hstart, .inr ⟨by simp, by omega, hfirst, ?_⟩, ?_⟩
        · exact fun n hn hlt => hbetween n hn (by omega)
        · rw [htake, List.drop_append_of_le_length (by omega), List.reverse_append]
          rfl
      · rintro ⟨start, -, ⟨-, hcontra, -⟩ | ⟨-, hlt, hfirst, hbetween⟩, rfl⟩
        · cases hcontra
        · refine ⟨_, (linesUpTo_eq_some_iff (Nat.le_of_lt hstop)).mpr
            ⟨start, by omega, hfirst, fun n hn hle => hbetween n hn (by omega), rfl⟩, ?_⟩
          rw [htake, List.drop_append_of_le_length (by omega), List.reverse_append]
          rfl

/-- The last line that is used decides, whatever is passed over behind it. -/
theorem above?_of_last_used {stop : Nat} (hstop : stop < lines.length)
    (h : IsGreatest {n | n < line ∧ LineIs lines n fun s => ¬(s = [] ∨ "#[".toList <+: s)}
      (stop + 1)) :
    above? lines line = (blockLines? (Checked.upFrom lines (stop + 1))).map fun block =>
      parse (Text.join ['\n'] block.reverse) (stop + 1 - block.length + 1) (stop + 1) := by
  obtain ⟨⟨hlt, hused⟩, hgreatest⟩ := h
  have hpassed : ∀ k raw, stop + 2 ≤ k + 1 → k + 1 < line → lines[k]? = some raw →
      isSkipped raw = true := by
    intro k raw hle hbefore hraw
    by_contra hnot
    have hline : LineIs lines (k + 1) fun s => ¬(s = [] ∨ "#[".toList <+: s) :=
      ⟨k, raw, rfl, hraw, mt isSkipped_iff.mpr hnot⟩
    have := hgreatest ⟨hbefore, hline⟩
    omega
  have hnot : ¬ isSkipped lines[stop] = true := mt isSkipped_iff.mp ((lineIs_iff hstop).mp hused)
  have hdrop : (lines.take (stop + 2 - 1)).reverse.dropWhile isSkipped =
      Checked.upFrom lines (stop + 1) := by
    change (Checked.upFrom lines (stop + 1)).dropWhile isSkipped = _
    rw [Checked.upFrom_succ hstop, List.dropWhile_cons_of_neg hnot]
  rw [above?_eq_of_passed (show 1 ≤ stop + 2 by omega) hlt hpassed, above?, hdrop,
    Checked.length_upFrom hstop]

theorem last_used_of_above? {d : DocBlock} (h : above? lines line = some d) :
    IsGreatest {n | n < line ∧ LineIs lines n fun s => ¬(s = [] ∨ "#[".toList <+: s)}
      d.endLine := by
  have habove := above_of_above? h
  have hpos : 1 ≤ d.endLine := Nat.le_trans habove.start_pos habove.start_le
  obtain ⟨raw, hraw, -, hused⟩ := habove.last
  constructor
  · have hnot : ¬ isSkipped raw = true := by simp [hused]
    exact ⟨habove.end_lt, d.endLine - 1, raw, by omega, hraw, mt isSkipped_iff.mpr hnot⟩
  · rintro n ⟨hn, k, raw, rfl, hraw, hnot⟩
    by_contra hlt
    exact hnot (isSkipped_iff.mp (habove.passed k raw (by omega) hn hraw))

/-- The comment that is found above a line is the one that stands there. -/
theorem above?_eq_some_iff {d : DocBlock} :
    above? lines line = some d ↔ ∃ first last, CommentAbove lines line first last ∧
      d = parse (Text.join ['\n'] ((lines.take last).drop (first - 1))) first last := by
  have hfound {stop : Nat} (hstop : stop < lines.length) (hused : IsGreatest
      {n | n < line ∧ LineIs lines n fun s => ¬(s = [] ∨ "#[".toList <+: s)} (stop + 1)) :
      above? lines line = some d ↔ ∃ start ≤ stop, CommentAbove lines line (start + 1) (stop + 1) ∧
        d = parse (Text.join ['\n'] ((lines.take (stop + 1)).drop start)) (start + 1)
          (stop + 1) := by
    have hcount (start : Nat) (hle : start ≤ stop) :
        stop + 1 - ((lines.take (stop + 1)).drop start).reverse.length + 1 = start + 1 := by
      simp
      omega
    rw [above?_of_last_used hstop hused, Option.map_eq_some_iff]
    simp only [blockLines?_eq_some_iff hstop]
    constructor
    · rintro ⟨block, ⟨hends, start, hle, hstarts, rfl⟩, rfl⟩
      exact ⟨start, hle, ⟨hused, hends, hstarts⟩, by rw [hcount start hle, List.reverse_reverse]⟩
    · rintro ⟨start, hle, hcomment, rfl⟩
      refine ⟨_, ⟨hcomment.ends, start, hle, hcomment.starts, rfl⟩, ?_⟩
      rw [hcount start hle, List.reverse_reverse]
  constructor
  · intro h
    have hused := last_used_of_above? h
    obtain ⟨stop, raw, hend, hraw, -⟩ := hused.1.2
    rw [hend] at hused
    obtain ⟨start, -, hcomment, hd⟩ := (hfound (List.getElem?_eq_some_iff.mp hraw).1 hused).mp h
    exact ⟨start + 1, stop + 1, hcomment, hd⟩
  · rintro ⟨first, last, hcomment, hd⟩
    obtain ⟨stop, raw, rfl, hraw, -⟩ := hcomment.ends
    obtain ⟨start, rfl, hle⟩ : ∃ start, first = start + 1 ∧ start ≤ stop := by
      rcases hcomment.starts with ⟨rfl, -⟩ | ⟨-, hlt, ⟨start, -, rfl, -⟩, -⟩
      · exact ⟨stop, rfl, Nat.le_refl stop⟩
      · exact ⟨start, rfl, by omega⟩
    exact (hfound (List.getElem?_eq_some_iff.mp hraw).1 hcomment.last_used).mpr
      ⟨start, hle, hcomment, hd⟩

end Lines

end DocBlock

namespace SourceModel

/-- A declaration has a doc comment exactly if one stands above its line, and then it is the
one that stands there: on its lines, with its text as it is written. No other one can stand
there. -/
theorem documented_iff_comment_above {lines : List Text} {model : SourceModel}
    (h : ofLines lines = .ok model) {line : Nat} {doc : Option DocBlock}
    (he : (line, doc) ∈ model.documented) :
    (doc.isSome = true ↔ ∃ first last, DocBlock.CommentAbove lines line first last) ∧
      ∀ first last, DocBlock.CommentAbove lines line first last →
        (∃ d, doc = some d ∧ d.startLine = first ∧ d.endLine = last ∧
          d.raw = Text.join ['\n'] ((lines.take last).drop (first - 1))) ∧
        ∀ first' last', DocBlock.CommentAbove lines line first' last' →
          first' = first ∧ last' = last := by
  obtain ⟨hdoc, -⟩ := documented_facts h he
  have hplace {first last : Nat} (hcomment : DocBlock.CommentAbove lines line first last) :
      ∃ d, doc = some d ∧ d.place =
        ((first, last), Text.join ['\n'] ((lines.take last).drop (first - 1))) :=
    ⟨_, hdoc.trans (DocBlock.above?_eq_some_iff.mpr ⟨first, last, hcomment, rfl⟩),
      DocBlock.place_parse _ first last⟩
  refine ⟨⟨fun hsome => ?_, fun ⟨first, last, hcomment⟩ => ?_⟩, fun first last hcomment => ?_⟩
  · obtain ⟨d, hd⟩ := Option.isSome_iff_exists.mp hsome
    obtain ⟨first, last, hcomment, -⟩ := DocBlock.above?_eq_some_iff.mp (hdoc.symm.trans hd)
    exact ⟨first, last, hcomment⟩
  · obtain ⟨d, hd, -⟩ := hplace hcomment
    rw [hd]
    rfl
  · obtain ⟨d, hd, hfound⟩ := hplace hcomment
    obtain ⟨hspan, hraw⟩ := Prod.mk.inj hfound
    refine ⟨⟨d, hd, congrArg Prod.fst hspan, congrArg Prod.snd hspan, hraw⟩, ?_⟩
    intro first' last' hother
    obtain ⟨d', hd', hfound'⟩ := hplace hother
    obtain rfl := Option.some.inj (hd.symm.trans hd')
    have hsame := (congrArg Prod.fst hfound').symm.trans hspan
    exact ⟨congrArg Prod.fst hsame, congrArg Prod.snd hsame⟩

/-- A comment over several lines, with an attribute and a blank line behind it. -/
def attributedBelow : List Text :=
  ["<?php", "  /**", "   * Adds.", "", "   */", "  #[Pure]", "", "function add() \x7b\x7d"].map
    String.toList

theorem documented_iff_comment_above_attributed :
    ∃ model doc, ofLines attributedBelow = .ok model ∧ (8, doc) ∈ model.documented ∧
      doc.isSome = true ∧ DocBlock.CommentAbove attributedBelow 8 2 5 := by
  have hread : documented <$> ofLines attributedBelow =
      .ok [(8, DocBlock.above? attributedBelow 8)] := by
    decide +kernel
  obtain ⟨model, hmodel, hdocumented⟩ := map_eq_ok_iff.mp hread
  have he : (8, DocBlock.above? attributedBelow 8) ∈ model.documented := by
    rw [hdocumented]
    exact List.mem_cons_self
  have hspan : (DocBlock.above? attributedBelow 8).map DocBlock.span = some (2, 5) := by
    decide +kernel
  obtain ⟨hfound, hplace⟩ := documented_iff_comment_above hmodel he
  obtain ⟨d, hd, hd'⟩ := Option.map_eq_some_iff.mp hspan
  have hsome : (DocBlock.above? attributedBelow 8).isSome = true := by rw [hd]; rfl
  obtain ⟨first, last, hcomment⟩ := hfound.mp hsome
  obtain ⟨⟨d', hsame, rfl, rfl, -⟩, -⟩ := hplace first last hcomment
  obtain rfl := Option.some.inj (hd.symm.trans hsame)
  obtain ⟨hfirst, hlast⟩ := Prod.mk.inj hd'
  rw [hfirst, hlast] at hcomment
  exact ⟨model, _, hmodel, he, hsome, hcomment⟩

end SourceModel

end PhpLint
