import Mathlib.Data.List.TakeDrop
import Mathlib.Data.List.TakeWhile
import PhpLint.Text.Basic

/-!
Where a text is trimmed, stripped and cut. A character that is not blank ends what
trimming drops, at the start as well as at the end; a text is stripped of what it starts
or ends with, and cut in front of the first character that is looked for.
-/

namespace PhpLint.Text

/-- A character of a class is none of those outside of it. -/
theorem not_mem_of_class {p : Char → Bool} {c : Char} (hc : p c = true) {chars : List Char}
    (h : chars.any p = false) : c ∉ chars := by
  intro hmem
  rw [List.any_eq_false] at h
  exact h c hmem hc

@[simp] theorem trimStart_nil : trimStart [] = [] := rfl

theorem trimStart_cons_of_blank {c : Char} (hc : isBlank c = true) (s : Text) :
    trimStart (c :: s) = trimStart s := by
  simp [trimStart, hc]

theorem trimStart_cons_of_not_blank {c : Char} (hc : isBlank c = false) (s : Text) :
    trimStart (c :: s) = c :: s := by
  simp [trimStart, hc]

theorem not_blank_of_trimStart {c : Char} {s t : Text} (h : trimStart s = c :: t) :
    isBlank c = false := by
  have hnot := List.head?_dropWhile_not isBlank s
  rw [show s.dropWhile isBlank = c :: t from h] at hnot
  exact hnot

@[simp] theorem trimEnd_nil : trimEnd [] = [] := rfl

theorem trimEnd_append {c : Char} (hc : isBlank c = false) (s t : Text) :
    trimEnd (s ++ c :: t) = s ++ c :: trimEnd t := by
  simp only [trimEnd, dropEndWhile, List.reverse_append, List.reverse_cons, List.append_assoc,
    List.dropWhile_append]
  cases ht : (t.reverse.dropWhile isBlank).isEmpty with
  | true =>
    have hnil : t.reverse.dropWhile isBlank = [] := by simpa using ht
    simp [hnil, hc]
  | false => simp

theorem trimEnd_cons {c : Char} (hc : isBlank c = false) (s : Text) :
    trimEnd (c :: s) = c :: trimEnd s :=
  trimEnd_append hc [] s

theorem trimEnd_cons_of_blank {c : Char} (hc : isBlank c = true) (s : Text) :
    trimEnd (c :: s) = if trimEnd s = [] then [] else c :: trimEnd s := by
  simp only [trimEnd, dropEndWhile, List.reverse_cons, List.dropWhile_append, List.isEmpty_iff,
    List.reverse_eq_nil_iff]
  split <;> simp [hc]

/-- A text that does not start with white space starts as it does before trimming. -/
theorem trim_of_trimStart {c : Char} {s t : Text} (h : trimStart s = c :: t) :
    trim s = c :: trimEnd t := by
  rw [trim, h, trimEnd_cons (not_blank_of_trimStart h)]

theorem trimStart_eq_self {s : Text} (h : ∀ c ∈ s.head?, isBlank c = false) : trimStart s = s := by
  cases s with
  | nil => rfl
  | cons c s => exact trimStart_cons_of_not_blank (h c rfl) s

theorem dropEndWhile_prefix (p : Char → Bool) (s : Text) : dropEndWhile p s <+: s := by
  have hsuffix := List.reverse_prefix.mpr (List.dropWhile_suffix (l := s.reverse) p)
  rwa [List.reverse_reverse] at hsuffix

theorem trimEnd_eq_self {s : Text} (h : ∀ c ∈ s.getLast?, isBlank c = false) : trimEnd s = s := by
  have hreverse : trimStart s.reverse = s.reverse :=
    trimStart_eq_self (by rwa [List.head?_reverse])
  change (trimStart s.reverse).reverse = s
  rw [hreverse, List.reverse_reverse]

theorem not_blank_of_trimEnd (s : Text) : ∀ c ∈ (trimEnd s).getLast?, isBlank c = false := by
  intro c hc
  have hnot := List.head?_dropWhile_not isBlank s.reverse
  rw [trimEnd, dropEndWhile, List.getLast?_reverse] at hc
  rw [Option.mem_def.mp hc] at hnot
  exact hnot

theorem trim_eq_self {s : Text} (hstart : ∀ c ∈ s.head?, isBlank c = false)
    (hend : ∀ c ∈ s.getLast?, isBlank c = false) : trim s = s := by
  rw [trim, trimStart_eq_self hstart, trimEnd_eq_self hend]

theorem trim_of_not_blank {s : Text} (h : ∀ c ∈ s, isBlank c = false) : trim s = s :=
  trim_eq_self (fun c hc => h c (List.mem_of_mem_head? hc))
    fun c hc => h c (List.mem_of_mem_getLast? hc)

/-- What trimming leaves as it is has no white space at either end. -/
theorem trimStart_and_trimEnd_of_trim {s : Text} (h : trim s = s) :
    trimStart s = s ∧ trimEnd s = s := by
  have hsuffix : trimStart s <:+ s := List.dropWhile_suffix _
  have hprefix : trim s <+: trimStart s := dropEndWhile_prefix _ _
  have hle := hprefix.length_le
  rw [h] at hle
  have hstart : trimStart s = s := hsuffix.eq_of_length_le hle
  refine ⟨hstart, ?_⟩
  rw [trim, hstart] at h
  exact h

/-- A text with something other than white space at either end. -/
structure Trimmed (s : Text) : Prop where
  starts : ∃ c ∈ s.head?, isBlank c = false
  ends : ∃ c ∈ s.getLast?, isBlank c = false

namespace Trimmed

variable {s t : Text}

theorem of_not_blank (hne : s ≠ []) (h : ∀ c ∈ s, isBlank c = false) : Trimmed s where
  starts := ⟨s.head hne, List.head?_eq_some_head hne, h _ (List.head_mem hne)⟩
  ends := ⟨s.getLast hne, List.getLast?_eq_some_getLast hne, h _ (List.getLast_mem hne)⟩

theorem singleton {c : Char} (hc : isBlank c = false) : Trimmed [c] :=
  ⟨⟨c, rfl, hc⟩, ⟨c, rfl, hc⟩⟩

theorem ne_nil (h : Trimmed s) : s ≠ [] := by
  obtain ⟨c, hc, -⟩ := h.starts
  exact List.ne_nil_of_mem (List.mem_of_mem_head? hc)

theorem trim_eq (h : Trimmed s) : trim s = s := by
  obtain ⟨c, hc, hstart⟩ := h.starts
  obtain ⟨d, hd, hend⟩ := h.ends
  refine trim_eq_self (fun e he => ?_) fun e he => ?_
  · rwa [Option.mem_unique he hc]
  · rwa [Option.mem_unique he hd]

theorem trimStart_append (h : Trimmed s) (t : Text) : trimStart (s ++ t) = s ++ t := by
  obtain ⟨c, hc, hstart⟩ := h.starts
  refine trimStart_eq_self fun e he => ?_
  rw [List.head?_append, Option.mem_def.mp hc, Option.some_or] at he
  rwa [← Option.some.inj he]

theorem trimEnd_append (h : Trimmed s) (t : Text) : trimEnd (s ++ t) = s ++ trimEnd t := by
  obtain ⟨c, hc, hend⟩ := h.ends
  obtain ⟨init, rfl⟩ := List.getLast?_eq_some_iff.mp hc
  rw [List.append_assoc, List.singleton_append, Text.trimEnd_append hend, List.append_assoc,
    List.singleton_append]

theorem around (hs : Trimmed s) (ht : Trimmed t) (between : Text) :
    Trimmed (s ++ between ++ t) where
  starts := by
    obtain ⟨c, hc, hstart⟩ := hs.starts
    exact ⟨c, by simp [Option.mem_def.mp hc], hstart⟩
  ends := by
    obtain ⟨c, hc, hend⟩ := ht.ends
    exact ⟨c, by simp [Option.mem_def.mp hc], hend⟩

theorem join {sep : Text} {parts : List Text} (hne : parts ≠ []) (h : ∀ p ∈ parts, Trimmed p) :
    Trimmed (join sep parts) := by
  match parts with
  | [] => exact absurd rfl hne
  | [p] => exact h p (by simp)
  | p :: q :: rest =>
    exact (h p (by simp)).around
      (join (List.cons_ne_nil q rest) fun r hr => h r (List.mem_cons_of_mem p hr)) sep

end Trimmed

theorem trimStart_append_of_blank {front : Text} (h : ∀ c ∈ front, isBlank c = true) (s : Text) :
    trimStart (front ++ s) = trimStart s :=
  List.dropWhile_append_of_pos h

theorem trimStart_append_char {blanks : Text} (h : ∀ c ∈ blanks, isBlank c = true) {c : Char}
    (hc : isBlank c = false) (s : Text) : trimStart (blanks ++ c :: s) = c :: s := by
  rw [trimStart_append_of_blank h, trimStart_cons_of_not_blank hc]

/-- The blanks that trimming drops at the start. -/
theorem exists_blanks (s : Text) :
    ∃ blanks, s = blanks ++ trimStart s ∧ ∀ c ∈ blanks, isBlank c = true :=
  ⟨s.takeWhile isBlank, List.takeWhile_append_dropWhile.symm,
    List.all_eq_true.mp List.all_takeWhile⟩

/-- The blanks that trimming drops at the end. -/
theorem exists_blanks_behind (s : Text) :
    ∃ blanks, s = trimEnd s ++ blanks ∧ ∀ c ∈ blanks, isBlank c = true := by
  obtain ⟨blanks, hs, hblanks⟩ := exists_blanks s.reverse
  refine ⟨blanks.reverse, ?_, by simpa using hblanks⟩
  have hreverse := congrArg List.reverse hs
  rw [List.reverse_reverse, List.reverse_append] at hreverse
  exact hreverse

theorem trimEnd_append_of_blank {back : Text} (h : ∀ c ∈ back, isBlank c = true) (s : Text) :
    trimEnd (s ++ back) = trimEnd s := by
  rw [trimEnd, trimEnd, dropEndWhile, dropEndWhile, List.reverse_append,
    List.dropWhile_append_of_pos (by simpa using h)]

/-- Blanks at either end do not count. -/
theorem trim_around {front back : Text} (hfront : ∀ c ∈ front, isBlank c = true)
    (hback : ∀ c ∈ back, isBlank c = true) (s : Text) : trim (front ++ s ++ back) = trim s := by
  rw [List.append_assoc, trim, trimStart_append_of_blank hfront, trim]
  cases hs : trimStart s with
  | nil =>
    have hall : trimStart (s ++ back) = [] := by
      rw [trimStart, List.dropWhile_eq_nil_iff] at hs ⊢
      intro c hc
      exact (List.mem_append.mp hc).elim (hs c) (hback c)
    rw [hall]
  | cons c t =>
    have hstart : trimStart (s ++ back) = (c :: t) ++ back := by
      rw [← hs, trimStart, trimStart, List.dropWhile_append, if_neg]
      rw [← trimStart, hs]
      simp
    rw [hstart, trimEnd_append_of_blank hback]

/-- The blanks that trimming drops at either end. -/
theorem exists_blanks_around (s : Text) : ∃ front back, s = front ++ trim s ++ back ∧
    (∀ c ∈ front, isBlank c = true) ∧ ∀ c ∈ back, isBlank c = true := by
  obtain ⟨front, hs, hfront⟩ := exists_blanks s
  obtain ⟨back, hstart, hback⟩ := exists_blanks_behind (trimStart s)
  refine ⟨front, back, ?_, hfront, hback⟩
  rw [trim, List.append_assoc, ← hstart, ← hs]

/-- Trimming the end leaves the blanks at the start and the trimmed text, or nothing. -/
theorem exists_trimEnd (s : Text) :
    ∃ blanks, (∀ c ∈ blanks, isBlank c = true) ∧ trimEnd s = blanks ++ trim s := by
  obtain ⟨front, back, hs, hfront, hback⟩ := exists_blanks_around s
  have htrim : trimEnd s = trimEnd (front ++ trim s) := by
    conv => lhs; rw [hs, trimEnd_append_of_blank hback]
  by_cases hnil : trim s = []
  · refine ⟨[], by simp, ?_⟩
    have hall := trimEnd_append_of_blank hfront []
    rw [htrim, hnil, List.append_nil]
    exact hall
  · refine ⟨front, hfront, htrim.trans (trimEnd_eq_self fun c hc => ?_)⟩
    have hlast := List.getLast?_eq_some_getLast hnil
    rw [List.getLast?_append, hlast, Option.some_or] at hc
    exact not_blank_of_trimEnd _ c (hlast.trans hc)

theorem trimEnd_append_blanks {blanks s : Text} (h : ∀ c ∈ blanks, isBlank c = true) :
    trimEnd (blanks ++ s) = if trimEnd s = [] then [] else blanks ++ trimEnd s := by
  induction blanks with
  | nil => split <;> simp_all
  | cons c blanks ih =>
    rw [List.forall_mem_cons] at h
    rw [List.cons_append, trimEnd_cons_of_blank h.1, ih h.2]
    split <;> simp_all

theorem not_blank_of_trim (s : Text) : ∀ c ∈ (trim s).head?, isBlank c = false := by
  intro c hc
  cases hs : trimStart s with
  | nil => simp [trim, hs] at hc
  | cons d t =>
    rw [trim_of_trimStart hs] at hc
    obtain rfl : d = c := Option.some.inj hc
    exact not_blank_of_trimStart hs

theorem trim_trim (s : Text) : trim (trim s) = trim s :=
  trim_eq_self (not_blank_of_trim s) (not_blank_of_trimEnd (trimStart s))

theorem Trimmed.of_trim_eq {s : Text} (hne : s ≠ []) (h : trim s = s) : Trimmed s where
  starts := by
    have hhead := List.head?_eq_some_head hne
    exact ⟨_, hhead, not_blank_of_trim s _ (by rw [h]; exact hhead)⟩
  ends := by
    have hlast := List.getLast?_eq_some_getLast hne
    exact ⟨_, hlast, not_blank_of_trimEnd (trimStart s) _ (by rw [← trim, h]; exact hlast)⟩

theorem trim_eq_nil_iff {s : Text} : trim s = [] ↔ trimStart s = [] := by
  cases h : trimStart s with
  | nil => simp [trim, h]
  | cons c t => simp [trim_of_trimStart h]

theorem mem_join {sep : Text} {parts : List Text} {c : Char} (h : c ∈ join sep parts) :
    c ∈ sep ∨ ∃ p ∈ parts, c ∈ p := by
  match parts with
  | [] => cases h
  | [p] => exact .inr ⟨p, by simp, h⟩
  | p :: q :: parts =>
    rcases List.mem_append.mp h with h | h
    · rcases List.mem_append.mp h with h | h
      · exact .inr ⟨p, by simp, h⟩
      · exact .inl h
    · exact (mem_join h).imp_right fun ⟨r, hr, hc⟩ => ⟨r, List.mem_cons_of_mem _ hr, hc⟩

theorem join_append (sep : Text) {front back : List Text} (hfront : front ≠ [])
    (hback : back ≠ []) : join sep (front ++ back) = join sep front ++ sep ++ join sep back := by
  match front, back with
  | [p], q :: back => rfl
  | p :: r :: rest, back =>
    have hrest := join_append sep (List.cons_ne_nil r rest) hback
    rw [List.cons_append] at hrest
    simp only [List.cons_append, join, hrest, List.append_assoc]

theorem strip?_eq_some_iff {start s rest : Text} :
    strip? start s = some rest ↔ s = start ++ rest := by
  induction start generalizing s with
  | nil => simp [strip?]
  | cons c start ih =>
    cases s with
    | nil => simp [strip?]
    | cons d s =>
      by_cases hcd : c = d
      · simp [strip?, hcd, ih]
      · simp [strip?, hcd, Ne.symm hcd]

theorem stripEnd?_eq_some_iff {tail s front : Text} :
    stripEnd? tail s = some front ↔ s = front ++ tail := by
  rw [stripEnd?, Option.map_eq_some_iff]
  constructor
  · rintro ⟨back, hstrip, rfl⟩
    have hreverse := congrArg List.reverse (strip?_eq_some_iff.mp hstrip)
    simpa using hreverse
  · rintro rfl
    exact ⟨front.reverse, strip?_eq_some_iff.mpr (by simp), by simp⟩

theorem stripEnd?_of_not_mem {c : Char} {tail s : Text} (htail : c ∈ tail) (hs : c ∉ s) :
    stripEnd? tail s = none := by
  cases hstrip : stripEnd? tail s with
  | none => rfl
  | some front =>
    rw [stripEnd?_eq_some_iff.mp hstrip] at hs
    exact absurd (List.mem_append_right front htail) hs

theorem cut_of_all {p : Char → Bool} {s : Text} (h : ∀ c ∈ s, p c = false) :
    cut p s = (s, []) := by
  have hall : ∀ c ∈ s, (!p c) = true := by
    intro c hc
    simp [h c hc]
  rw [cut, List.span_eq_takeWhile_dropWhile, Prod.mk.injEq, List.takeWhile_eq_self_iff,
    List.dropWhile_eq_nil_iff]
  exact ⟨hall, hall⟩

theorem cut_split {p : Char → Bool} {s : Text} (h : ∀ c ∈ s, p c = false) {c : Char}
    (hc : p c = true) (t : Text) : cut p (s ++ c :: t) = (s, c :: t) := by
  have hall : ∀ d ∈ s, (!p d) = true := by
    intro d hd
    simp [h d hd]
  rw [cut, List.span_eq_takeWhile_dropWhile, List.takeWhile_append_of_pos hall,
    List.dropWhile_append_of_pos hall]
  simp [hc]

/-- Either a text is not cut at all, or it is cut in front of a first character. -/
theorem cut_cases (p : Char → Bool) (s : Text) :
    ((∀ c ∈ s, p c = false) ∧ cut p s = (s, [])) ∨
      ∃ before c rest, s = before ++ c :: rest ∧ (∀ d ∈ before, p d = false) ∧ p c = true ∧
        cut p s = (before, c :: rest) := by
  by_cases hall : ∀ c ∈ s, p c = false
  · exact .inl ⟨hall, cut_of_all hall⟩
  · refine .inr ?_
    induction s with
    | nil => simp at hall
    | cons d s ih =>
      cases hd : p d with
      | true => exact ⟨[], d, s, rfl, by simp, hd, cut_split (s := []) (by simp) hd s⟩
      | false =>
        obtain ⟨before, c, rest, rfl, hbefore, hc, -⟩ := ih (by simpa [hd] using hall)
        have hmore : ∀ e ∈ d :: before, p e = false := by simpa [hd] using hbefore
        exact ⟨d :: before, c, rest, rfl, hmore, hc, cut_split hmore hc rest⟩

theorem cut_of_not_mem {c : Char} {s : Text} (h : c ∉ s) : cut (· == c) s = (s, []) := by
  apply cut_of_all
  intro d hd
  simpa using ne_of_mem_of_not_mem hd h

theorem cut_append {c : Char} {s : Text} (h : c ∉ s) (t : Text) :
    cut (· == c) (s ++ c :: t) = (s, c :: t) := by
  apply cut_split ?_ (by simp)
  intro d hd
  simpa using ne_of_mem_of_not_mem hd h

theorem splitAtChar_ne_nil (sep : Char) (s : Text) : splitAtChar sep s ≠ [] := by
  cases s with
  | nil => simp [splitAtChar]
  | cons c s =>
    rw [splitAtChar]
    split
    · simp
    · split <;> simp

theorem splitAtChar_of_not_mem {sep : Char} {s : Text} (h : sep ∉ s) : splitAtChar sep s = [s] := by
  induction s with
  | nil => rfl
  | cons c s ih =>
    rw [List.mem_cons, not_or] at h
    rw [splitAtChar, if_neg (Ne.symm h.1), ih h.2]

theorem splitAtChar_append_sep (sep : Char) (s t : Text) :
    splitAtChar sep (s ++ sep :: t) = splitAtChar sep s ++ splitAtChar sep t := by
  induction s with
  | nil => simp [splitAtChar]
  | cons c s ih =>
    rw [List.cons_append, splitAtChar, splitAtChar, ih]
    cases hsplit : splitAtChar sep s with
    | nil => exact absurd hsplit (splitAtChar_ne_nil sep s)
    | cons part parts => split <;> rfl

theorem splitAtChar_append {sep : Char} {s : Text} (h : sep ∉ s) (t : Text) :
    splitAtChar sep (s ++ sep :: t) = s :: splitAtChar sep t := by
  rw [splitAtChar_append_sep, splitAtChar_of_not_mem h, List.singleton_append]

/-- Parts that are joined come apart again. -/
theorem splitAtChar_join {sep : Char} {parts : List Text} (hne : parts ≠ [])
    (h : ∀ p ∈ parts, sep ∉ p) : splitAtChar sep (join [sep] parts) = parts := by
  match parts with
  | [] => exact absurd rfl hne
  | [p] => exact splitAtChar_of_not_mem (h p (by simp))
  | p :: q :: rest =>
    have hrest := splitAtChar_join (List.cons_ne_nil q rest)
      fun r hr => h r (List.mem_cons_of_mem _ hr)
    rw [join, List.append_assoc, List.singleton_append, splitAtChar_append (h p (by simp)), hrest]

/-- A blank in front of a text stays at the front of its first part. -/
theorem map_trim_splitAtChar_cons {sep c : Char} (hc : isBlank c = true) (hne : c ≠ sep)
    (s : Text) : (splitAtChar sep (c :: s)).map trim = (splitAtChar sep s).map trim := by
  rw [splitAtChar, if_neg hne]
  cases hsplit : splitAtChar sep s with
  | nil => exact absurd hsplit (splitAtChar_ne_nil sep s)
  | cons part parts => simp [trim, trimStart_cons_of_blank hc]

/-- Parts that are joined with a blank behind each separator come apart again. -/
theorem map_trim_splitAtChar_join {sep : Char} (hsep : ' ' ≠ sep) {parts : List Text}
    (hne : parts ≠ []) (h : ∀ p ∈ parts, sep ∉ p ∧ trim p = p) :
    (splitAtChar sep (join [sep, ' '] parts)).map trim = parts := by
  match parts with
  | [] => exact absurd rfl hne
  | [p] => simp [join, splitAtChar_of_not_mem (h p (by simp)).1, (h p (by simp)).2]
  | p :: q :: rest =>
    have hrest := map_trim_splitAtChar_join hsep (List.cons_ne_nil q rest)
      fun r hr => h r (List.mem_cons_of_mem _ hr)
    rw [join, List.append_assoc, List.cons_append, List.singleton_append,
      splitAtChar_append (h p (by simp)).1, List.map_cons, (h p (by simp)).2,
      map_trim_splitAtChar_cons rfl hsep, hrest]

theorem not_mem_of_mem_splitAtChar {sep : Char} {s part : Text} (h : part ∈ splitAtChar sep s) :
    sep ∉ part := by
  induction s generalizing part with
  | nil =>
    rw [splitAtChar, List.mem_singleton] at h
    simp [h]
  | cons c s ih =>
    rw [splitAtChar] at h
    split at h
    · rcases List.mem_cons.mp h with rfl | hrest
      · simp
      · exact ih hrest
    · rename_i hc
      cases hsplit : splitAtChar sep s with
      | nil => exact absurd hsplit (splitAtChar_ne_nil sep s)
      | cons first rest =>
        rw [hsplit] at h ih
        rcases List.mem_cons.mp h with rfl | hrest
        · rw [List.mem_cons, not_or]
          exact ⟨Ne.symm hc, ih (by simp)⟩
        · exact ih (List.mem_cons_of_mem _ hrest)

theorem join_cons (sep s : Text) (rest : List Text) :
    join sep (s :: rest) = s ++ if rest = [] then [] else sep ++ join sep rest := by
  cases rest with
  | nil => simp [join]
  | cons t rest => simp [join]

theorem mem_join_of_mem {sep : Text} {parts : List Text} {p : Text} {c : Char} (hp : p ∈ parts)
    (hc : c ∈ p) : c ∈ join sep parts := by
  induction parts with
  | nil => cases hp
  | cons q parts ih =>
    rw [join_cons]
    rcases List.mem_cons.mp hp with rfl | hp
    · exact List.mem_append_left _ hc
    · rw [if_neg (List.ne_nil_of_mem hp)]
      exact List.mem_append_right _ (List.mem_append_right _ (ih hp))

/-- The number of the line on which a place of the joined lines lies; the break behind a line
belongs to it. -/
def lineOf : List Text → Nat → Nat
  | [], _ => 0
  | line :: rest, n => if n ≤ line.length then 0 else lineOf rest (n - (line.length + 1)) + 1

/-- A character of joined texts that is no separator is a character of one of them. -/
theorem exists_split_of_join {sep c : Char} (hc : c ≠ sep) {parts : List Text} {s t : Text}
    (h : join [sep] parts = s ++ c :: t) :
    ∃ front a b back, parts = front ++ (a ++ c :: b) :: back ∧ s = join [sep] (front ++ [a]) ∧
      t = join [sep] (b :: back) := by
  induction parts generalizing s with
  | nil => simp [join] at h
  | cons p parts ih =>
    rw [join_cons, List.append_eq_append_iff] at h
    rcases h with ⟨s', rfl, hrest⟩ | ⟨t', rfl, hrest⟩
    · -- The character stands behind the first text.
      cases parts with
      | nil => simp at hrest
      | cons q parts =>
        rw [if_neg (List.cons_ne_nil q parts), List.singleton_append] at hrest
        cases s' with
        | nil => exact absurd (List.cons.inj hrest).1.symm hc
        | cons d s' =>
          obtain ⟨rfl, hmore⟩ := List.cons.inj hrest
          obtain ⟨front, a, b, back, hparts, rfl, ht⟩ := ih hmore
          refine ⟨p :: front, a, b, back, by rw [hparts]; rfl, ?_, ht⟩
          rw [List.cons_append, join_cons, if_neg (by simp)]
          rfl
    · cases t' with
      | nil =>
        split at hrest
        · cases hrest
        · exact absurd (List.cons.inj hrest).1 hc
      | cons d t' =>
        obtain ⟨rfl, rfl⟩ := List.cons.inj hrest
        refine ⟨[], s, t', parts, rfl, rfl, ?_⟩
        rw [join_cons]
        rfl

theorem lineOf_join {sep : Char} (front : List Text) (a b : Text) (back : List Text) :
    lineOf (front ++ (a ++ b) :: back) (join [sep] (front ++ [a])).length = front.length := by
  induction front with
  | nil =>
    simp [lineOf, join]
  | cons p front ih =>
    have hlength : (join [sep] (p :: front ++ [a])).length =
        p.length + 1 + (join [sep] (front ++ [a])).length := by
      rw [List.cons_append, join_cons, if_neg (by simp)]
      simp
      omega
    rw [hlength, List.cons_append, lineOf, if_neg (by omega), Nat.add_sub_cancel_left, ih]
    rfl

theorem lineOf_append {sep : Char} {front : List Text} {a : Text} {n : Nat}
    (h : n ≤ (join [sep] (front ++ [a])).length) (b : Text) (back : List Text) :
    lineOf (front ++ (a ++ b) :: back) n = lineOf (front ++ [a]) n := by
  induction front generalizing n with
  | nil =>
    have hle : n ≤ a.length := h
    have hle' : n ≤ (a ++ b).length := by
      rw [List.length_append]
      omega
    rw [List.nil_append, List.nil_append, lineOf, lineOf, if_pos hle, if_pos hle']
  | cons p front ih =>
    rw [List.cons_append, join_cons, if_neg (by simp)] at h
    simp only [List.length_append, List.length_cons, List.length_nil] at h
    rw [List.cons_append, List.cons_append, lineOf, lineOf, ih (by simp; omega)]

theorem occursIn_eq_true_iff {needle s : Text} : occursIn needle s = true ↔ needle <:+: s := by
  induction s with
  | nil => rw [occursIn, List.isEmpty_iff, List.infix_nil]
  | cons c s ih =>
    rw [occursIn, Bool.or_eq_true, List.isPrefixOf_iff_prefix, ih, List.infix_cons_iff]

/-- A text without a sign that begins another one ends in front of the sign. -/
theorem isPrefix_of_not_mem {w s t : Text} {c : Char} (hc : c ∉ w) (h : w <+: s ++ c :: t) :
    w <+: s := by
  obtain ⟨u, hu⟩ := h
  rcases List.append_eq_append_iff.mp hu with ⟨rest, rfl, -⟩ | ⟨rest, rfl, hrest⟩
  · exact List.prefix_append w rest
  · cases rest with
    | nil => exact ⟨[], by simp⟩
    | cons d rest =>
      obtain ⟨rfl, -⟩ := List.cons.inj hrest
      exact absurd (by simp) hc

end PhpLint.Text
