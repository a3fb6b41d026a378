import PhpLint.Check.Typing
import PhpLint.Proofs.LogicalLine.Marks
import PhpLint.Proofs.SourceModel.Steps

/-!
Where the declaration of strict types is taken from. It is looked for in the text of every
logical line that begins in code, and that text has its literals; so a declaration is found in
the code of such a line, or else its first word stands inside a literal of the line.
-/

namespace PhpLint.SourceModel

open Code Scrubber

variable {s t rest marker : Text} {lines : List Text} {line : LogicalLine}

/-- The declaration of strict types: two words in any case and the signs around the second one,
with any number of blanks between them. -/
def IsStrictTypes (marker : Text) : Prop :=
  ∃ word name a b c d e, marker = word ++ (a ++ '(' :: (b ++ (name ++
      (c ++ '=' :: (d ++ '1' :: (e ++ [')'])))))) ∧
    word.map foldLetter = "declare".toList ∧ name.map foldLetter = "strict_types".toList ∧
    ∀ blanks ∈ [a, b, c, d, e], ∀ x ∈ blanks, Text.isBlank x = true

/-- Somewhere in a text strict types are declared. -/
def DeclaresStrictTypes (s : Text) : Prop := ∃ marker, IsStrictTypes marker ∧ marker <:+: s

/-- A sign behind blanks. -/
theorem strip?_trimStart_eq_some_iff {c : Char} (hc : Text.isBlank c = false) :
    Text.strip? [c] (Text.trimStart s) = some t ↔
      ∃ blanks, s = blanks ++ c :: t ∧ ∀ x ∈ blanks, Text.isBlank x = true := by
  rw [Text.strip?_eq_some_iff]
  constructor
  · intro h
    obtain ⟨blanks, hs, hblanks⟩ := Text.exists_blanks s
    exact ⟨blanks, by rw [h] at hs; exact hs, hblanks⟩
  · rintro ⟨blanks, rfl, hblanks⟩
    exact Text.trimStart_append_char hblanks hc t

/-- A word behind blanks. -/
theorem keyword?_trimStart_eq_some_iff {word w : Text}
    (hword : word.head?.any Text.isIdentPart = true) :
    keyword? word (Text.trimStart s) = some (w, t) ↔
      ∃ blanks, s = blanks ++ (w ++ t) ∧ w.map foldLetter = word ∧
        ∀ x ∈ blanks, Text.isBlank x = true := by
  rw [keyword?_eq_some_iff]
  constructor
  · rintro ⟨h, hw⟩
    obtain ⟨blanks, hs, hblanks⟩ := Text.exists_blanks s
    exact ⟨blanks, by rw [h] at hs; exact hs, hw, hblanks⟩
  · rintro ⟨blanks, rfl, rfl, hblanks⟩
    cases w with
    | nil => cases hword
    | cons c w =>
      have hc : Text.isBlank c = false := Text.isBlank_of_isWord (isWord_of_foldLetter hword)
      exact ⟨Text.trimStart_append_char hblanks hc _, rfl⟩

/-- What the reader of the declaration has read. -/
theorem readStrictTypes?_eq_some_iff :
    readStrictTypes? s = some rest ↔ ∃ marker, s = marker ++ rest ∧ IsStrictTypes marker := by
  have hname : "strict_types".toList.head?.any Text.isIdentPart = true := rfl
  simp only [readStrictTypes?, Option.bind_eq_bind, Option.bind_eq_some_iff, Prod.exists,
    keyword?_eq_some_iff, keyword?_trimStart_eq_some_iff hname,
    strip?_trimStart_eq_some_iff (c := '(') (by decide),
    strip?_trimStart_eq_some_iff (c := '=') (by decide),
    strip?_trimStart_eq_some_iff (c := '1') (by decide),
    strip?_trimStart_eq_some_iff (c := ')') (by decide)]
  constructor
  · rintro ⟨word, _, ⟨rfl, hword⟩, _, ⟨a, rfl, ha⟩, name, _, ⟨b, rfl, hname, hb⟩, _, ⟨c, rfl, hc⟩,
      _, ⟨d, rfl, hd⟩, e, rfl, he⟩
    refine ⟨_, by simp, word, name, a, b, c, d, e, rfl, hword, hname, ?_⟩
    simp only [List.forall_mem_cons]
    exact ⟨ha, hb, hc, hd, he, by simp⟩
  · rintro ⟨marker, rfl, word, name, a, b, c, d, e, rfl, hword, hname, hblanks⟩
    simp only [List.forall_mem_cons] at hblanks
    obtain ⟨ha, hb, hc, hd, he, -⟩ := hblanks
    exact ⟨word, _, ⟨by simp, hword⟩, _, ⟨a, rfl, ha⟩, name, _, ⟨b, rfl, hname, hb⟩, _,
      ⟨c, rfl, hc⟩, _, ⟨d, rfl, hd⟩, e, rfl, he⟩

theorem declaresStrictTypes_eq_true_iff : declaresStrictTypes s = true ↔ DeclaresStrictTypes s := by
  induction s with
  | nil =>
    constructor
    · simp [declaresStrictTypes]
    · rintro ⟨marker, ⟨word, name, a, b, c, d, e, rfl, -⟩, hpart⟩
      simpa using List.eq_nil_of_infix_nil hpart
  | cons c s ih =>
    simp only [declaresStrictTypes, Bool.or_eq_true, ih, Option.isSome_iff_exists,
      readStrictTypes?_eq_some_iff, DeclaresStrictTypes, List.infix_cons_iff]
    constructor
    · rintro (⟨rest, marker, hs, hmarker⟩ | ⟨marker, hmarker, hpart⟩)
      · exact ⟨marker, hmarker, .inl ⟨rest, hs.symm⟩⟩
      · exact ⟨marker, hmarker, .inr hpart⟩
    · rintro ⟨marker, hmarker, ⟨rest, hs⟩ | hpart⟩
      · exact .inl ⟨rest, marker, hs.symm, hmarker⟩
      · exact .inr ⟨marker, hmarker, hpart⟩

/-- The declaration has neither quotes nor angle brackets. -/
theorem IsStrictTypes.plain (h : IsStrictTypes marker) :
    ∀ x ∈ marker, x ∉ ['<', '\'', '"', '`'] := by
  obtain ⟨word, name, a, b, c, d, e, rfl, hword, hname, hblanks⟩ := h
  have hletters {w letters : Text} (hfold : w.map foldLetter = letters)
      (hall : ∀ k ∈ letters, Text.isIdentPart k = true) : ∀ x ∈ w, x ∉ ['<', '\'', '"', '`'] :=
    fun x hx => Text.not_mem_of_class
      (isWord_of_foldLetter (hall _ (hfold ▸ List.mem_map_of_mem hx))) (by decide)
  have hblank {blanks : Text} (hall : ∀ x ∈ blanks, Text.isBlank x = true) :
      ∀ x ∈ blanks, x ∉ ['<', '\'', '"', '`'] :=
    fun x hx => Text.not_mem_of_class (hall x hx) (by decide)
  simp only [List.forall_mem_cons] at hblanks
  obtain ⟨ha, hb, hc, hd, he, -⟩ := hblanks
  simp only [List.forall_mem_append, List.forall_mem_cons]
  exact ⟨hletters hword (List.all_eq_true.mp rfl), hblank ha, by decide, hblank hb,
    hletters hname (List.all_eq_true.mp rfl), hblank hc, by decide, hblank hd, by decide,
    hblank he, by decide, by simp⟩

/-- The word that the declaration begins with is written in plain letters. -/
theorem isIdentPart_of_declare {word : Text} (h : word.map foldLetter = "declare".toList) :
    ∀ x ∈ word, Text.isIdentPart x = true := by
  intro x hx
  have hfold : foldLetter x ∈ "declare".toList := h ▸ List.mem_map_of_mem hx
  unfold foldLetter at hfold
  split at hfold
  · exact absurd hfold (by decide)
  · split at hfold
    · exact absurd hfold (by decide)
    · have hlower : ∀ k ∈ "declare".toList, Text.isIdentPart k = true :=
        List.all_eq_true.mp rfl
      exact Text.isIdentPart_of_toLower (hlower _ hfold)

/-- The first word of the declaration stands inside a literal of a logical line. -/
def HidesDeclare (lines : List Text) (line : LogicalLine) : Prop :=
  ∃ word, word.map foldLetter = "declare".toList ∧ line.HidesWord lines word

section Marked

variable {m : ScrubMode} {marks : MarkedText} {code : Text}

/-- A declaration in a text is one in its code, if its first word does not stand inside a
literal. -/
theorem DeclaresStrictTypes.of_text (h : HasCode .code marks code m)
    (htext : DeclaresStrictTypes (marks.map Prod.fst)) :
    DeclaresStrictTypes code ∨
      ∃ word, word.map foldLetter = "declare".toList ∧ Hides marks word := by
  obtain ⟨marker, hmarker, u, v, hsplit⟩ := htext
  rw [List.append_assoc, eq_comm, List.map_eq_append_iff] at hsplit
  obtain ⟨front, back, rfl, rfl, hback⟩ := hsplit
  obtain ⟨between, first, second, rfl, -, hcode⟩ := h.split
  obtain ⟨word, name, a, b, c, d, e, hm, hword, -⟩ := id hmarker
  cases word with
  | nil => cases hword
  | cons x word =>
    rw [hm, List.cons_append, List.cons_append, List.map_eq_cons_iff] at hback
    obtain ⟨⟨x, hidden⟩, back, rfl, rfl, hrest⟩ := hback
    have hident := isIdentPart_of_declare hword
    cases hidden with
    | true =>
      rw [List.append_assoc] at hrest
      obtain ⟨rest, hhidden⟩ := hcode.of_hidden hident hrest
      exact .inr ⟨_, hword, front, rest, by rw [hhidden, List.append_assoc]⟩
    | false =>
      have hx : x ∉ ['\'', '"', '`'] :=
        Text.not_mem_of_class (hident x List.mem_cons_self) (by decide)
      obtain ⟨rfl, -⟩ := hcode.of_char hx
      obtain ⟨rest, shown, -, rfl, -⟩ := hcode.of_run (w := marker) (t := v) hmarker.plain
        (by rw [hm, List.map_cons, hrest]; rfl)
      exact .inl ⟨marker, hmarker, first, shown, by simp⟩

/-- A declaration in the code stands in the text, too. -/
theorem DeclaresStrictTypes.of_code (h : HasCode .code marks code m)
    (hcode : DeclaresStrictTypes code) : DeclaresStrictTypes (marks.map Prod.fst) := by
  obtain ⟨marker, hmarker, u, v, hsplit⟩ := hcode
  have hplain : ∀ x ∈ marker, x ∉ ['\'', '"', '`'] := fun x hx hmem =>
    hmarker.plain x hx (List.mem_cons_of_mem '<' hmem)
  obtain ⟨word, name, a, b, c, d, e, hm, hword, -⟩ := id hmarker
  cases word with
  | nil => cases hword
  | cons x word =>
    have hx : Text.isIdentPart x = true := isIdentPart_of_declare hword x List.mem_cons_self
    rw [List.append_assoc, hm] at hsplit
    obtain ⟨front, back, rfl, hback⟩ := h.exists_of_shown
      (Text.not_mem_of_class hx (by decide)) (Text.isBlank_of_isIdentPart hx) hsplit.symm
    obtain ⟨rest, hrest, -⟩ := hback.of_shown (w := marker) (t := v) hplain (by rw [hm]; rfl)
    refine ⟨marker, hmarker, front.map Prod.fst, rest.map Prod.fst, ?_⟩
    simp [hrest, Function.comp_def]

end Marked

namespace Reading

variable {r r' : Reading} {run : List LogicalLine}

theorem closeClass_strictTypes (r : Reading) (line : LogicalLine) :
    (r.closeClass line).model.strictTypes = r.model.strictTypes := by
  unfold closeClass
  split
  · rfl
  · split
    · rfl
    · split <;> rfl

/-- Strict types are declared by a line that begins in code, and stay declared. -/
theorem step_strictTypes (h : step lines r line = .ok r') :
    r'.model.strictTypes =
      (r.model.strictTypes || !line.continues && declaresStrictTypes line.text) := by
  unfold step at h
  split at h
  · rename_i hcontinues
    obtain ⟨read, hread, hclosed⟩ := bind_eq_ok_iff.mp h
    obtain rfl := Except.ok.inj hread
    obtain rfl := Except.ok.inj hclosed
    simp [closeClass_strictTypes, hcontinues]
  · rename_i hcontinues
    obtain ⟨read, hread, hclosed⟩ := bind_eq_ok_iff.mp h
    obtain rfl := Except.ok.inj hclosed
    rw [readDeclarations_eq, map_eq_ok_iff] at hread
    obtain ⟨imports, -, rfl⟩ := hread
    rw [closeClass_strictTypes]
    simp only [readStrictTypes, readNamespace, Bool.not_eq_true] at hcontinues ⊢
    cases declaresStrictTypes line.text <;> cases readNamespace? line.text <;> simp [hcontinues]

theorem run_strictTypes (h : run.foldlM (step lines) r = .ok r') :
    r'.model.strictTypes = true ↔ r.model.strictTypes = true ∨
      ∃ line ∈ run, line.continues = false ∧ DeclaresStrictTypes line.text := by
  induction run generalizing r with
  | nil =>
    obtain rfl := Except.ok.inj h
    simp
  | cons line rest ih =>
    obtain ⟨next, hstep, hrest⟩ := run_cons.mp h
    rw [ih hrest, step_strictTypes hstep]
    simp only [Bool.or_eq_true, Bool.and_eq_true, Bool.not_eq_true', List.exists_mem_cons_iff,
      declaresStrictTypes_eq_true_iff, or_assoc]

end Reading

/-- A line that begins in code declares strict types in its code, or has the first word of the
declaration inside a literal. -/
theorem declaresStrictTypes_line (hline : line ∈ LogicalLine.ofLines lines)
    (hplain : line.continues = false) :
    DeclaresStrictTypes line.text ↔
      DeclaresStrictTypes line.code ∨ DeclaresStrictTypes line.text ∧ HidesDeclare lines line := by
  obtain ⟨m, marks, htext, hcode, hwords⟩ := LogicalLine.exists_marked hline hplain
  rw [← htext]
  constructor
  · intro h
    refine (DeclaresStrictTypes.of_text hcode h).imp_right ?_
    rintro ⟨word, hword, hhides⟩
    have hblank : ∀ x ∈ word, Text.isBlank x = false := fun x hx =>
      Text.isBlank_of_isIdentPart (isIdentPart_of_declare hword x hx)
    exact ⟨h, word, hword, hwords word hblank hhides⟩
  · rintro (h | ⟨h, -⟩)
    · exact .of_code hcode h
    · exact h

/-- Strict types are declared by the logical lines that begin in code: by the code of one of
them, or by the text of one that has the first word of the declaration inside a literal. If no
literal of the file holds that word, nothing but code silences the rule. -/
theorem strictTypes_iff_declared {model : SourceModel} (h : ofLines lines = .ok model) :
    (model.strictTypes = true ↔
      ∃ line ∈ LogicalLine.ofLines lines, line.continues = false ∧
        (DeclaresStrictTypes line.code ∨
          DeclaresStrictTypes line.text ∧ HidesDeclare lines line)) ∧
      ((∀ marks ∈ markedLines lines, ∀ word, word.map foldLetter = "declare".toList →
          ¬ Hides marks word) →
        ∀ ctx, Check.strictTypes ctx model = [] ↔ model.hasDeclarations = false ∨
          ∃ line ∈ LogicalLine.ofLines lines, line.continues = false ∧
            DeclaresStrictTypes line.code) := by
  obtain ⟨r, hrun, rfl⟩ := ofLines_eq_ok_iff.mp h
  have hstrict : r.finish.strictTypes = true ↔ ∃ line ∈ LogicalLine.ofLines lines,
      line.continues = false ∧ DeclaresStrictTypes line.text := by
    change r.model.strictTypes = true ↔ _
    simpa using Reading.run_strictTypes hrun
  have hmain : r.finish.strictTypes = true ↔ ∃ line ∈ LogicalLine.ofLines lines,
      line.continues = false ∧ (DeclaresStrictTypes line.code ∨
        DeclaresStrictTypes line.text ∧ HidesDeclare lines line) := by
    rw [hstrict]
    refine exists_congr fun line => and_congr_right fun hline => and_congr_right fun hplain => ?_
    exact declaresStrictTypes_line hline hplain
  refine ⟨hmain, fun hclean ctx => ?_⟩
  have hcode : r.finish.strictTypes = true ↔ ∃ line ∈ LogicalLine.ofLines lines,
      line.continues = false ∧ DeclaresStrictTypes line.code := by
    rw [hmain]
    refine exists_congr fun line => and_congr_right fun _ => and_congr_right fun _ => ?_
    refine or_iff_left ?_
    rintro ⟨-, word, hword, n, marks, -, -, hmarks, hhides⟩
    exact hclean marks (List.mem_of_getElem? hmarks) word hword hhides
  rw [← hcode, Check.strictTypes]
  cases r.finish.strictTypes <;> cases r.finish.hasDeclarations <;> simp

/-- A string holds a part of the declaration that stands in front of it. -/
def spacedDeclaration : List Text :=
  ["<?php", "Declare ( STRICT_TYPES =1 );", "$note = 'strict_types=1';",
    "class A \x7b \x7d"].map String.toList

theorem strictTypes_iff_declared_spaced :
    ∃ model, ofLines spacedDeclaration = .ok model ∧
      (∀ marks ∈ markedLines spacedDeclaration, ∀ word,
        word.map foldLetter = "declare".toList → ¬ Hides marks word) ∧
      (∃ line ∈ LogicalLine.ofLines spacedDeclaration, line.continues = false ∧
        (DeclaresStrictTypes line.code ∨
          DeclaresStrictTypes line.text ∧ HidesDeclare spacedDeclaration line)) ∧
      ∀ ctx, Check.strictTypes ctx model = [] := by
  have hread : SourceModel.strictTypes <$> ofLines spacedDeclaration = .ok true := by
    decide +kernel
  obtain ⟨model, hmodel, hstrict⟩ := map_eq_ok_iff.mp hread
  have hletter : ∀ marks ∈ markedLines spacedDeclaration, ∀ d ∈ marks, d.2 = true →
      foldLetter d.1 ≠ 'd' := by decide +kernel
  have hclean : ∀ marks ∈ markedLines spacedDeclaration, ∀ word,
      word.map foldLetter = "declare".toList → ¬ Hides marks word := by
    intro marks hmarks word hword hhides
    cases word with
    | nil => cases hword
    | cons x word =>
      exact hletter marks hmarks (x, true) (hhides.subset List.mem_cons_self) rfl
        (List.cons.inj hword).1
  obtain ⟨hiff, hsilent⟩ := strictTypes_iff_declared hmodel
  have hcode : ∃ line ∈ LogicalLine.ofLines spacedDeclaration, line.continues = false ∧
      declaresStrictTypes line.code = true := by decide +kernel
  simp only [declaresStrictTypes_eq_true_iff] at hcode
  exact ⟨model, hmodel, hclean, hiff.mp hstrict, fun ctx => (hsilent hclean ctx).mpr (.inr hcode)⟩

/-- The declaration stands in a string, and nowhere else. -/
def quotedDeclaration : List Text :=
  ["<?php", "$x = 'declare(strict_types=1)';", "class A \x7b \x7d"].map String.toList

/-- Strict types are taken from a string, and the rule is silent. -/
theorem strictTypes_of_quoted_declaration :
    ∃ model, ofLines quotedDeclaration = .ok model ∧ model.strictTypes = true ∧
      model.hasDeclarations = true ∧ (∀ ctx, Check.strictTypes ctx model = []) ∧
      ∀ line ∈ LogicalLine.ofLines quotedDeclaration, ¬ DeclaresStrictTypes line.code := by
  have hread : (fun m => (m.strictTypes, m.hasDeclarations)) <$> ofLines quotedDeclaration =
      .ok (true, true) := by decide +kernel
  obtain ⟨model, hmodel, hpair⟩ := map_eq_ok_iff.mp hread
  obtain ⟨hstrict, hdeclared⟩ := Prod.mk.inj hpair
  have hcode : ∀ line ∈ LogicalLine.ofLines quotedDeclaration,
      ¬ declaresStrictTypes line.code = true := by decide +kernel
  simp only [declaresStrictTypes_eq_true_iff] at hcode
  exact ⟨model, hmodel, hstrict, hdeclared, fun ctx => by simp [Check.strictTypes, hstrict], hcode⟩

end PhpLint.SourceModel
