import Mathlib.Data.List.Forall2
import PhpLint.Proofs.Code.LineComment
import PhpLint.Proofs.Declaration.ClassPadding
import PhpLint.Proofs.LogicalLine.Split

/-!
Logical lines of a file and of the same file with a line comment behind one of its
lines. The two runs of the reader hold the same line back at every point, because a
line that is joined is trimmed; a line that stands alone may have a blank more. The
reader looks ahead at raw lines, so the two agree only where the comment does not hide
a result type: a blank line with a comment on it is not blank any more.
-/

namespace PhpLint.LogicalLine

theorem trimStart_withComment (line comment : Text) :
    Text.trimStart (Text.withComment line comment) =
      if Text.trimStart line = [] then '/' :: '/' :: ' ' :: comment
      else Text.withComment (Text.trimStart line) comment := by
  rw [Text.withComment_eq]
  split
  · rename_i hblank
    have hempty : (line.dropWhile Text.isBlank).isEmpty = true := by
      simpa [Text.trimStart] using hblank
    rw [Text.trimStart, List.dropWhile_append, if_pos hempty]
    rfl
  · rename_i hline
    rw [Scrubber.trimStart_comment hline]
    rfl

/-- A comment starts no result type, and one behind a text that is not blank does not
change how the text starts. -/
theorem startsReturnType_withComment (line comment : Text) :
    startsReturnType (some (Text.withComment line comment)) = startsReturnType (some line) := by
  unfold startsReturnType
  rw [Option.map_some, Option.map_some, trimStart_withComment]
  match Text.trimStart line with
  | [] => rfl
  | [c] =>
    by_cases hc : c = ':'
    · subst hc
      rfl
    · simp [Text.withComment_eq, hc]
  | c :: d :: t =>
    by_cases hc : c = ':'
    · by_cases hd : d = ':'
      · subst hc hd
        rfl
      · simp [Text.withComment_eq, hc, hd]
    · simp [Text.withComment_eq, hc]

/-- Looking ahead finds a result type with the comment where it finds one without. -/
theorem startsReturnType_nextLine {line : Text} {after : List Text}
    (h : Text.trim line = [] → startsReturnType (nextLine after) = false)
    (before : List Text) (comment : Text) :
    startsReturnType (nextLine (before ++ Text.withComment line comment :: after)) =
      startsReturnType (nextLine (before ++ line :: after)) := by
  have hcomment : Text.trim (Text.withComment line comment) ≠ [] := by
    rw [Ne, Text.trim_eq_nil_iff, trimStart_withComment]
    split
    · simp
    · simp [Text.withComment_eq]
  unfold nextLine at h ⊢
  rw [List.find?_append, List.find?_append]
  cases before.find? fun l => !(Text.trim l).isEmpty with
  | some l => rfl
  | none =>
    rw [Option.none_or, Option.none_or, List.find?_cons_of_pos (by simpa using hcomment),
      startsReturnType_withComment]
    by_cases hline : Text.trim line = []
    · rw [List.find?_cons_of_neg (by simp [hline]), h hline]
      unfold startsReturnType
      rw [Option.map_some, Text.trim_eq_nil_iff.mp hline]
    · rw [List.find?_cons_of_pos (by simpa using hline)]

section Blank

/-- What a blank at the end leaves as it is: the counts of brackets, the end of the
code, and what is joined. -/
theorem parenCounts_blank (code : Text) :
    Code.parenCounts (code ++ [' ']) = Code.parenCounts code := by
  simp [Code.parenCounts]

theorem endsWithParen_blank (code : Text) : endsWithParen (code ++ [' ']) = endsWithParen code := by
  rw [endsWithParen, endsWithParen, Text.trimEnd_blank]

theorem contains_blank {c : Char} (hc : c ≠ ' ') (code : Text) :
    (code ++ [' ']).contains c = code.contains c := by
  simp [hc]

theorem braceDelta_blank (code : Text) :
    Code.braceDelta (code ++ [' ']) = Code.braceDelta code := by
  rw [Code.braceDelta_append]
  exact Int.add_zero _

theorem append_blank (joined piece : Text) :
    append joined (piece ++ [' ']) = append joined piece := by
  rw [append, append, Text.trim_blank]

end Blank

/-- A text that a comment has left as it is or has left a blank behind. -/
def Loosened (s s' : Text) : Prop := s' = s ∨ s' = s ++ [' ']

theorem Loosened.apply {α : Type} {s s' : Text} (h : Loosened s s') {f : Text → α}
    (hf : ∀ s, f (s ++ [' ']) = f s) : f s' = f s := by
  rcases h with rfl | rfl
  · rfl
  · exact hf s

theorem Buffer.push_loosened (b : Buffer) (number : Nat) {text text' code code' : Text}
    (htext : Loosened text text') (hcode : Loosened code code') :
    b.push number text' code' = b.push number text code := by
  unfold Buffer.push
  rw [htext.apply (append_blank _), hcode.apply (append_blank _), hcode.apply parenCounts_blank,
    hcode.apply braceDelta_blank]

theorem Buffer.isComplete_loosened (b : Buffer) {code code' : Text} (h : Loosened code code')
    (next : Option Text) : b.isComplete code' next = b.isComplete code next := by
  have hbrace := h.apply (contains_blank (c := '{') (by decide))
  have hsemicolon := h.apply (contains_blank (c := ';') (by decide))
  simp only [Buffer.isComplete, hbrace, hsemicolon]

theorem Buffer.start_loosened (kind : Pending) {line line' : LogicalLine}
    (hsame : line' = { line with text := line'.text, code := line'.code })
    (htext : Loosened line.text line'.text) (hcode : Loosened line.code line'.code) :
    Buffer.start kind line' = Buffer.start kind line := by
  unfold Buffer.start
  rw [htext.apply Text.trim_blank, hcode.apply Text.trim_blank, hcode.apply parenCounts_blank,
    hsame]

theorem pending?_loosened {line line' : LogicalLine} (htext : Loosened line.text line'.text)
    (hcode : Loosened line.code line'.code) (next : Option Text) :
    pending? line' next = pending? line next := by
  have hfunction : (FunctionDecl.readHead? (Code.stripAttributes line'.text)).isSome =
      (FunctionDecl.readHead? (Code.stripAttributes line.text)).isSome := by
    refine htext.apply (f := fun s => (FunctionDecl.readHead? (Code.stripAttributes s)).isSome) ?_
    intro s
    rw [Code.stripAttributes_blank]
    refine Text.pad_invariant (f := fun s => (FunctionDecl.readHead? s).isSome) (fun t => ?_) _
    rw [FunctionDecl.readHead?_blank, Option.isSome_map]
  have hclass : (ClassDecl.readHead? (Code.stripAttributes line'.text)).isSome =
      (ClassDecl.readHead? (Code.stripAttributes line.text)).isSome := by
    refine htext.apply (f := fun s => (ClassDecl.readHead? (Code.stripAttributes s)).isSome) ?_
    intro s
    rw [Code.stripAttributes_blank]
    refine Text.pad_invariant (f := fun s => (ClassDecl.readHead? s).isSome) (fun t => ?_) _
    rw [ClassDecl.readHead?_blank, Option.isSome_map]
  unfold pending?
  simp only [hfunction, hclass, hcode.apply parenCounts_blank, hcode.apply endsWithParen_blank,
    hcode.apply (contains_blank (c := '{') (by decide)),
    hcode.apply (contains_blank (c := ';') (by decide))]

/-- A logical line, and the line in its place once there is a comment somewhere. It may
have a blank more if it is a text for which that is allowed. -/
structure Commented (E : Text → Prop) (line line' : LogicalLine) : Prop where
  first_eq : line'.first = line.first
  last_eq : line'.last = line.last
  delta_eq : line'.braceDelta = line.braceDelta
  continues_eq : line'.continues = line.continues
  brace_eq : line'.code.contains '{' = line.code.contains '{'
  text_eq : line'.text = line.text ∨ line'.text = line.text ++ [' '] ∧ E line.text

theorem Commented.loosened {E : Text → Prop} {line line' : LogicalLine}
    (h : Commented E line line') : Loosened line.text line'.text :=
  h.text_eq.imp_right And.left

/-- The comment reaches the declaration behind the attributes in the same way. -/
theorem Loosened.stripAttributes {s s' : Text} (h : Loosened s s') :
    Loosened (Code.stripAttributes s) (Code.stripAttributes s') := by
  rcases h with rfl | rfl
  · exact .inl rfl
  · rw [Code.stripAttributes_blank]
    cases Code.stripAttributes s with
    | nil => exact .inl rfl
    | cons c t => exact .inr rfl

theorem Commented.refl (E : Text → Prop) (line : LogicalLine) : Commented E line line :=
  ⟨rfl, rfl, rfl, rfl, rfl, .inl rfl⟩

/-- The line itself, in front of which something may be held back. -/
theorem ofLinesFrom_commented {E : Text → Prop} {line : Text} (comment : Text) (number : Nat)
    {coder : Scrubber} (buffer : Option Buffer) (hkeep : coder.keepLiterals = false)
    (hplain : (coder.scrub line).2.mode = .code) (hE : E (coder.keeping.scrub line).1)
    (after : List Text) :
    List.Forall₂ (Commented E)
      (ofLinesFrom number coder coder.keeping buffer (line :: after))
      (ofLinesFrom number coder coder.keeping buffer (Text.withComment line comment :: after)) := by
  have hplain' : (coder.keeping.scrub line).2.mode = .code := by
    rw [Scrubber.scrub_keeping hkeep]
    exact hplain
  obtain ⟨blank, hblank, hcoder⟩ := Scrubber.scrub_withComment hplain comment
  obtain ⟨blank', hblank', htexter⟩ := Scrubber.scrub_withComment hplain' comment
  have hcode : Loosened (coder.scrub line).1 (coder.scrub (Text.withComment line comment)).1 := by
    rw [hcoder]
    exact hblank.imp (by simp [·]) (by simp [·])
  have htext : Loosened (coder.keeping.scrub line).1
      (coder.keeping.scrub (Text.withComment line comment)).1 := by
    rw [htexter]
    exact hblank'.imp (by simp [·]) (by simp [·])
  have hcoder' : (coder.scrub (Text.withComment line comment)).2 = (coder.scrub line).2 := by
    rw [hcoder]
  have htexter' : (coder.keeping.scrub (Text.withComment line comment)).2 =
      (coder.keeping.scrub line).2 := by
    rw [htexter]
  cases buffer with
  | some b =>
    rw [ofLinesFrom_push, ofLinesFrom_push, b.push_loosened number htext hcode,
      Buffer.isComplete_loosened _ hcode, hcoder', htexter']
    exact List.forall₂_same.mpr fun l _ => .refl E l
  | none =>
    have hsame : single number coder coder.keeping (Text.withComment line comment) =
        { single number coder coder.keeping line with
          text := (coder.keeping.scrub (Text.withComment line comment)).1
          code := (coder.scrub (Text.withComment line comment)).1 } := by
      simp only [single, hcode.apply braceDelta_blank]
    have hpending (next : Option Text) :
        pending? (single number coder coder.keeping (Text.withComment line comment)) next =
          pending? (single number coder coder.keeping line) next :=
      pending?_loosened htext hcode next
    rw [ofLinesFrom_single, ofLinesFrom_single, hpending,
      show (single number coder coder.keeping (Text.withComment line comment)).continues =
        (single number coder coder.keeping line).continues from rfl]
    split
    · rename_i kind hkind
      rw [Buffer.start_loosened kind hsame htext hcode, hcoder', htexter']
      exact List.forall₂_same.mpr fun l _ => .refl E l
    · rw [hcoder', htexter']
      refine .cons ?_ (List.forall₂_same.mpr fun l _ => .refl E l)
      refine ⟨rfl, rfl, hcode.apply braceDelta_blank, rfl,
        hcode.apply (contains_blank (c := '{') (by decide)), ?_⟩
      exact htext.imp_right fun hblank => ⟨hblank, hE⟩

/-- The reader of logical lines is not misled by a line comment behind a line that ends
in plain code, wherever the line stands and whatever is held back in front of it. -/
theorem ofLinesFrom_withComment {E : Text → Prop} {before after : List Text} {line : Text}
    (comment : Text) (number : Nat) {coder : Scrubber} (buffer : Option Buffer)
    (hkeep : coder.keepLiterals = false)
    (hplain : (coder.after (before ++ [line])).mode = .code)
    (hnext : Text.trim line = [] → startsReturnType (nextLine after) = false)
    (hE : E ((coder.keeping.after before).scrub line).1) :
    List.Forall₂ (Commented E)
      (ofLinesFrom number coder coder.keeping buffer (before ++ line :: after))
      (ofLinesFrom number coder coder.keeping buffer
        (before ++ Text.withComment line comment :: after)) := by
  obtain ⟨passed, held, -, hread, hread'⟩ := ofLinesFrom_common
    (fun before => startsReturnType_nextLine hnext before comment) before number coder
    coder.keeping buffer
  rw [Scrubber.after_append] at hplain
  rw [Scrubber.after_keeping hkeep] at hread hread' hE
  rw [hread, hread']
  refine List.rel_append (List.forall₂_same.mpr fun l _ => .refl E l) ?_
  exact ofLinesFrom_commented comment _ held ((coder.after_keepLiterals before).trans hkeep) hplain
    hE after

/-- A line comment behind a line that ends in plain code changes no logical line, except
for a blank at the end of one. -/
theorem ofLines_withComment {E : Text → Prop} {before after : List Text} {line : Text}
    (comment : Text) (hplain : (({} : Scrubber).after (before ++ [line])).mode = .code)
    (hnext : Text.trim line = [] → startsReturnType (nextLine after) = false)
    (hE : E ((({ keepLiterals := true } : Scrubber).after before).scrub line).1) :
    List.Forall₂ (Commented E) (ofLines (before ++ line :: after))
      (ofLines (before ++ Text.withComment line comment :: after)) :=
  ofLinesFrom_withComment comment 1 none rfl hplain hnext hE

end PhpLint.LogicalLine
