import PhpLint.Proofs.Declaration.Suffix
import PhpLint.Proofs.Text.Offset

/-!
The readers of brackets and separators in a second form, which walks the text with a
byte offset at hand, takes every part of the text by a slice, and checks every
subtraction. Main statement of each: nothing is ever out of range, and the parts are
those that the first form returns.
-/

namespace PhpLint

namespace Checked

/-- A difference of unsigned numbers; there is none below zero. -/
def sub? (a b : Nat) : Option Nat := if b ≤ a then some (a - b) else none

/-- The offset of the closing bracket that brings the depth back to zero, if there is
one; the offset is that of the text. -/
def closeAt? (opening closing : Char) (depth : Nat) (quotes : QuoteState) (offset : Nat) :
    Text → Option (Option Nat)
  | [] => some none
  | c :: s =>
    if quotes = .outside ∧ c = opening then
      closeAt? opening closing (depth + 1) (quotes.step c) (offset + c.utf8Size) s
    else if quotes = .outside ∧ c = closing then do
      let depth ← sub? depth 1
      if depth = 0 then return some offset
      else closeAt? opening closing depth (quotes.step c) (offset + c.utf8Size) s
    else closeAt? opening closing depth (quotes.step c) (offset + c.utf8Size) s

theorem closeAt?_eq {opening closing : Char} (hne : opening ≠ closing) {depth : Nat}
    (hdepth : 1 ≤ depth) (quotes : QuoteState) (offset : Nat) (s : Text) :
    closeAt? opening closing depth quotes offset s =
      some ((Code.closeFrom opening closing depth quotes s).map fun (inner, _) =>
        offset + Text.byteLength inner) := by
  induction s generalizing depth quotes offset with
  | nil => rfl
  | cons c s ih =>
    rw [closeAt?, Code.closeFrom]
    by_cases hquotes : quotes = .outside
    · by_cases hopen : c = opening
      · simp [hquotes, hopen, hne, ih, Option.map_map, Function.comp_def, Text.byteLength,
          Nat.add_assoc]
      · by_cases hclose : c = closing
        · obtain ⟨rest, rfl⟩ := Nat.exists_eq_add_of_le' hdepth
          cases rest with
          | zero => simp [hquotes, hclose, hne.symm, sub?, Text.byteLength]
          | succ n =>
            simp [hquotes, hclose, hne.symm, sub?, ih, Option.map_map, Function.comp_def,
              Text.byteLength, Nat.add_assoc]
        · simp [hquotes, hopen, hclose, ih, hdepth, Option.map_map, Function.comp_def,
            Text.byteLength, Nat.add_assoc]
    · simp [hquotes, ih, hdepth, Option.map_map, Function.comp_def, Text.byteLength,
        Nat.add_assoc]

/-- Skips attribute groups; each slice starts behind the bracket that closes one. -/
def stripAttributes? (s : Text) : Option Text :=
  match _ht : Text.trimStart s with
  | '#' :: '[' :: t =>
    match closeAt? '[' ']' 0 .outside 1 ('[' :: t) with
    | none => none
    | some none => some ('#' :: '[' :: t)
    | some (some stop) =>
      match _h : Code.dropBytes? (stop + 1) ('#' :: '[' :: t) with
      | none => none
      | some rest => stripAttributes? rest
  | t => some t
termination_by s.length
decreasing_by
  have hle : (Text.trimStart s).length ≤ s.length := (List.dropWhile_sublist _).length_le
  have hlt := Text.dropBytes?_length _h
  rw [_ht] at hle
  exact Nat.lt_of_lt_of_le hlt hle

/-- The bracket that closes an attribute is searched for from the one that opens it. -/
theorem closeAt?_attribute (t : Text) :
    closeAt? '[' ']' 0 .outside 1 ('[' :: t) =
      some ((Code.closeFrom '[' ']' 1 .outside t).map fun (inner, _) =>
        2 + Text.byteLength inner) := by
  rw [closeAt?, if_pos ⟨rfl, rfl⟩]
  exact closeAt?_eq (by decide) (by decide) _ 2 t

theorem dropBytes?_attribute {t inner rest : Text}
    (h : Code.closeFrom '[' ']' 1 .outside t = some (inner, rest)) :
    Code.dropBytes? (2 + Text.byteLength inner + 1) ('#' :: '[' :: t) = some rest := by
  have hsize : Text.byteLength ('#' :: '[' :: inner ++ [']']) = 2 + Text.byteLength inner + 1 := by
    simp only [List.cons_append, Text.byteLength, Text.byteLength_append]
    simp only [show '#'.utf8Size = 1 from rfl, show '['.utf8Size = 1 from rfl,
      show ']'.utf8Size = 1 from rfl]
    omega
  rw [← hsize, Code.closeFrom_eq_append h]
  simpa using Text.dropBytes?_append ('#' :: '[' :: inner ++ [']']) rest

theorem stripAttributes?_of_dropAttribute? {s : Text}
    (h : Code.dropAttribute? (Text.trimStart s) = none) :
    stripAttributes? s = some (Text.trimStart s) := by
  rw [stripAttributes?]
  split
  · rename_i t ht
    rw [ht, Code.dropAttribute?, Option.map_eq_none_iff] at h
    rw [closeAt?_attribute, h, ht]
    rfl
  · rfl

theorem stripAttributes?_of_dropAttribute?_some {s rest : Text}
    (h : Code.dropAttribute? (Text.trimStart s) = some rest) :
    stripAttributes? s = stripAttributes? rest := by
  rw [stripAttributes?]
  split
  · rename_i t ht
    rw [ht, Code.dropAttribute?] at h
    obtain ⟨⟨inner, rest'⟩, hclose, rfl⟩ := Option.map_eq_some_iff.mp h
    rw [closeAt?_attribute, hclose]
    simp only [Option.map_some]
    split
    · rename_i hnone
      rw [dropBytes?_attribute hclose] at hnone
      cases hnone
    · rename_i hsome
      rw [Option.some.inj ((dropBytes?_attribute hclose).symm.trans hsome)]
  · rename_i hother
    obtain ⟨inner, ht⟩ := Code.eq_append_of_dropAttribute? h
    exact absurd ht (hother _)

theorem stripAttributes?_eq (s : Text) : stripAttributes? s = some (Code.stripAttributes s) := by
  fun_induction Code.stripAttributes s with
  | case1 s rest hsome ih => rw [stripAttributes?_of_dropAttribute?_some hsome, ih]
  | case2 s hnone => exact stripAttributes?_of_dropAttribute? hnone

/-- Where the parts of a text start and stop that separators at the top level delimit. -/
def splitRanges (sep : Char) (n : Code.Nesting) (start offset : Nat) : Text → List (Nat × Nat)
  | [] => [(start, offset)]
  | c :: s =>
    if n.separates sep c then
      (start, offset) ::
        splitRanges sep (n.step c) (offset + c.utf8Size) (offset + c.utf8Size) s
    else splitRanges sep (n.step c) start (offset + c.utf8Size) s

/-- Splits a text at the separators outside brackets and quotes by slices. -/
def splitTopLevel? (sep : Char) (s : Text) : Option (List Text) :=
  (splitRanges sep {} 0 0 s).mapM fun (start, stop) => Text.slice? s start stop

/-- The ranges from a place on, where the current part has already begun. -/
theorem mapM_splitRanges (sep : Char) (n : Code.Nesting) (before part rest : Text) :
    ∃ next parts, Code.splitFrom sep n rest = next :: parts ∧
      (splitRanges sep n (Text.byteLength before) (Text.byteLength (before ++ part)) rest).mapM
          (fun (start, stop) => Text.slice? (before ++ part ++ rest) start stop) =
        some ((part ++ next) :: parts) := by
  induction rest generalizing n before part with
  | nil =>
    refine ⟨[], [], rfl, ?_⟩
    have hslice := Text.slice?_append before part []
    rw [← Text.byteLength_append, List.append_nil] at hslice
    simp [splitRanges, hslice, -Text.byteLength_append]
  | cons c rest ih =>
    have hoffset : Text.byteLength (before ++ part) + c.utf8Size =
        Text.byteLength (before ++ (part ++ [c])) := by
      simp [Text.byteLength, Nat.add_assoc]
    rw [Code.splitFrom, splitRanges, hoffset]
    split
    · obtain ⟨next, parts, hsplit, hranges⟩ := ih (n.step c) (before ++ (part ++ [c])) []
      refine ⟨[], next :: parts, by rw [hsplit], ?_⟩
      have hslice := Text.slice?_append before part (c :: rest)
      rw [← Text.byteLength_append] at hslice
      simp only [List.append_nil, List.append_assoc, List.cons_append, List.nil_append]
        at hranges hslice ⊢
      simp [List.mapM_cons, hslice, hranges, -Text.byteLength_append]
    · obtain ⟨next, parts, hsplit, hranges⟩ := ih (n.step c) before (part ++ [c])
      refine ⟨c :: next, parts, by rw [hsplit], ?_⟩
      simpa using hranges

theorem splitTopLevel?_eq (sep : Char) (s : Text) :
    splitTopLevel? sep s = some (Code.splitTopLevel sep s) := by
  obtain ⟨next, parts, hsplit, hranges⟩ := mapM_splitRanges sep {} [] [] s
  rw [Code.splitTopLevel, hsplit]
  exact hranges

end Checked

end PhpLint
