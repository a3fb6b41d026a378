import PhpLint.Check.Naming
import PhpLint.Proofs.Check.DefineCalls
import PhpLint.Proofs.Code.Constant
import PhpLint.Proofs.Code.Marks
import PhpLint.Proofs.Code.Search

/-!
Statements that declare several constants. The name of a constant is looked for right behind the
keyword, so of a statement that stands in code the first name is found and none of the others:
behind each of them comes an equals sign, whatever the name is. What is reported of the line is
what is to be said of that first name, which is everything exactly if the other names are in
constant case.
-/

namespace PhpLint.Check

open Code Scrubber

variable {name s t code : Text}

/-- An integer: digits in any base, with a sign or without. -/
def IsInteger (s : Text) : Prop :=
  ∃ sign d digits, s = sign ++ d :: digits ∧ sign ∈ [[], ['-'], ['+']] ∧ d.isDigit = true ∧
    ∀ c ∈ digits, Text.isIdentPart c = true

/-- A literal between single quotes, in which a backslash hides the next character. -/
def IsSingleQuoted (s : Text) : Prop := ∃ inner, s = '\'' :: (inner ++ ['\'']) ∧ IsQuoted '\'' inner

/-- One constant of a statement, as it is written. -/
structure ConstItem where
  name : Text
  value : Text

namespace ConstItem

def text (i : ConstItem) : Text := i.name ++ " = ".toList ++ i.value

/-- An ASCII name with an integer or a literal between single quotes. -/
structure IsWritten (i : ConstItem) : Prop where
  name : isIdentifier i.name = true
  value : IsInteger i.value ∨ IsSingleQuoted i.value

end ConstItem

/-- The statement that declares the given constants. -/
def constStatement (items : List ConstItem) : Text :=
  "const ".toList ++ Text.join ", ".toList (items.map ConstItem.text) ++ [';']

theorem readConst?_of_foldLetter {c : Char} (hc : foldLetter c ≠ 'c') (s : Text) :
    readConst? (c :: s) = none := by
  have hkeyword : keyword? "const".toList (c :: s) = none := by
    rw [show "const".toList = 'c' :: "onst".toList from rfl, keyword?, if_neg hc]
  rw [readConst?, hkeyword]
  rfl

/-- Behind a part of a name there is no blank, or all of the name has been read and the equals
sign follows. -/
theorem equals_of_blanks? {word rest : Text} (h : isIdentifier name = true)
    (hsplit : name ++ (" = ".toList ++ s) = word ++ rest) (hword : ' ' ∉ word)
    (hblanks : blanks? rest = some t) : t = "= ".toList ++ s := by
  obtain ⟨more, rfl, rfl⟩ : ∃ more, name = word ++ more ∧ rest = more ++ (" = ".toList ++ s) := by
    rcases List.append_eq_append_iff.mp hsplit with ⟨more, rfl, hmore⟩ | ⟨more, rfl, rfl⟩
    · cases more with
      | nil => exact ⟨[], by simp, hmore.symm⟩
      | cons c more =>
        obtain rfl : ' ' = c := (List.cons.inj hmore).1
        exact absurd (List.mem_append_right _ List.mem_cons_self) hword
    · exact ⟨more, rfl, rfl⟩
  cases more with
  | nil => exact (Option.some.inj hblanks).symm
  | cons c more =>
    have hc : Text.isBlank c = false :=
      Text.isBlank_of_isIdentPart (isIdentPart_of_isIdentifier h c (by simp))
    rw [List.cons_append, blanks?, hc] at hblanks
    cases hblanks

/-- Behind the keyword a name is expected, so a name with an equals sign behind it is no
declaration, even if it reads like the keyword. -/
theorem readConst?_name (h : isIdentifier name = true) (s : Text) :
    readConst? (name ++ (" = ".toList ++ s)) = none := by
  by_contra hsome
  obtain ⟨found, hfound⟩ := Option.ne_none_iff_exists'.mp hsome
  simp only [readConst?, Option.bind_eq_bind, Option.bind_eq_some_iff, Prod.exists,
    keyword?_eq_some_iff] at hfound
  obtain ⟨word, rest, ⟨hsplit, hword⟩, t, hblanks, hread⟩ := hfound
  have hblank : ' ' ∉ word := fun hmem => by
    have hfold : foldLetter ' ' ∈ "const".toList := hword ▸ List.mem_map_of_mem hmem
    exact absurd hfold (by decide)
  obtain rfl := equals_of_blanks? h hsplit hblank hblanks
  cases hread

/-- The keyword, a name and an equals sign; no type is read in front of the name. -/
theorem readConst?_statement (h : isIdentifier name = true) (s : Text) :
    readConst? ("const ".toList ++ (name ++ (" = ".toList ++ s))) = some (name, ' ' :: s) := by
  have hkeyword : keyword? "const".toList ("const ".toList ++ (name ++ (" = ".toList ++ s))) =
      some ("const".toList, ' ' :: (name ++ (" = ".toList ++ s))) :=
    keyword?_eq_some_iff.mpr ⟨rfl, rfl⟩
  have hassigned : readAssigned? (name ++ (" = ".toList ++ s)) = some (name, ' ' :: s) := by
    have hend : ∀ c ∈ (" = ".toList ++ s).head?, isNamePart c = false := by
      rintro c ⟨⟩
      decide
    rw [readAssigned?, name?_append h hend]
    rfl
  have htyped : ((readRun? isConstTypePart isConstTypePart (name ++ (" = ".toList ++ s))).bind
      fun found => (blanks? found.2).bind readAssigned?) = none := by
    by_contra hsome
    obtain ⟨found, hfound⟩ := Option.ne_none_iff_exists'.mp hsome
    simp only [Option.bind_eq_some_iff, Prod.exists] at hfound
    obtain ⟨run, rest, hrun, t, hblanks, hread⟩ := hfound
    obtain ⟨hsplit, c, tail, rfl, hc, htail⟩ := readRun?_eq_append hrun
    have hblank : ' ' ∉ c :: tail := by
      rw [List.mem_cons, not_or]
      constructor
      · rintro rfl
        cases hc
      · intro hmem
        cases htail ' ' hmem
    obtain rfl := equals_of_blanks? h hsplit hblank hblanks
    cases hread
  simp only [readConst?, hkeyword, Option.bind_eq_bind, Option.bind_some,
    blanks?_trimmed (trimmed_of_isIdentifier h)]
  rw [htyped]
  exact hassigned

theorem foldLetter_ne_of_isDigit {c : Char} (hc : c.isDigit = true) : foldLetter c ≠ 'c' := by
  have hident : Text.isIdentPart c = true := by simp [Text.isIdentPart, Char.isAlphanum, hc]
  rw [foldLetter_of_isIdentPart hident]
  unfold Char.toLower
  simp only [Char.isDigit, Bool.and_eq_true, decide_eq_true_eq, ge_iff_le,
    UInt32.le_iff_toNat_le] at hc
  split
  · rename_i hupper
    simp only [ge_iff_le, UInt32.le_iff_toNat_le] at hupper
    have hdigit := hc.2
    have hletter := hupper.1
    simp at hdigit hletter
    omega
  · rintro rfl
    simp at hc

/-- Without a parenthesis nothing is called. -/
theorem silent_readDefineOpen? (h : '(' ∉ s) : Silent readDefineOpen? s := by
  induction s with
  | nil => exact .nil
  | cons c s ih =>
    refine .cons ?_ (ih fun hmem => h (List.mem_cons_of_mem c hmem))
    by_contra hsome
    obtain ⟨⟨⟨⟩, rest⟩, hread⟩ := Option.ne_none_iff_exists'.mp hsome
    obtain ⟨head, q, hs, ⟨w, blanks, more, rfl, -⟩, -⟩ := readDefineOpen?_eq_some_iff.mp hread
    exact h (by rw [hs]; simp)

/-- What the rest of a statement shows in code: no constant is found in it, and nothing is
called. -/
structure Shows (text code : Text) : Prop where
  uncommented : Uncommented .code text code
  silent : Silent readConst? code
  not_called : '(' ∉ code

namespace Shows

theorem semicolon : Shows [';'] [';'] where
  uncommented := .plain (List.all_iff_forall_prop.mp (by decide))
  silent := .cons (readConst?_of_foldLetter (by decide) []) .nil
  not_called := by decide

/-- Signs that mean nothing to a scrubber, and with which no keyword begins. -/
theorem signs (hs : ∀ c ∈ s, c ∉ ['/', '#', '<', '\'', '"', '`', '('] ∧ foldLetter c ≠ 'c')
    (h : Shows t code) : Shows (s ++ t) (s ++ code) where
  uncommented := by
    refine .of_plain (fun c hc hmem => (hs c hc).1 ?_) h.uncommented
    simp only [List.mem_cons, List.not_mem_nil, or_false] at hmem ⊢
    tauto
  silent := by
    induction s with
    | nil => exact h.silent
    | cons c s ih =>
      rw [List.forall_mem_cons] at hs
      exact .cons (readConst?_of_foldLetter hs.1.2 _) (ih hs.2)
  not_called := by
    rw [List.mem_append, not_or]
    exact ⟨fun hmem => (hs _ hmem).1 (by simp), h.not_called⟩

theorem word (hs : ∀ c ∈ s, Text.isIdentPart c = true) (hread : readConst? (s ++ code) = none)
    (h : Shows t code) : Shows (s ++ t) (s ++ code) where
  uncommented := .of_plain (fun c hc => Text.not_mem_of_class (hs c hc) (by decide)) h.uncommented
  silent := .word (fun c hc => Text.isWord_of_isIdentPart (hs c hc)) hread h.silent
  not_called := by
    rw [List.mem_append, not_or]
    exact ⟨fun hmem => (by cases hs _ hmem), h.not_called⟩

/-- Of a literal the quotes are shown. -/
theorem quoted (hs : IsQuoted '\'' s) (h : Shows t code) :
    Shows ('\'' :: (s ++ '\'' :: t)) ('\'' :: '\'' :: code) where
  uncommented := .opens (.inl rfl) (hs.uncommented (.inl rfl) h.uncommented)
  silent := .cons (readConst?_of_foldLetter (by decide) _)
    (.cons (readConst?_of_foldLetter (by decide) _) h.silent)
  not_called := by simp [h.not_called]

theorem value (hs : IsInteger s ∨ IsSingleQuoted s) (h : Shows t code) :
    ∃ shown, Shows (s ++ t) shown := by
  rcases hs with ⟨sign, d, digits, rfl, hsign, hd, hdigits⟩ | ⟨inner, rfl, hinner⟩
  · have hident : ∀ c ∈ d :: digits, Text.isIdentPart c = true := by
      rw [List.forall_mem_cons]
      exact ⟨by simp [Text.isIdentPart, Char.isAlphanum, hd], hdigits⟩
    have hnumber := h.word hident (readConst?_of_foldLetter (foldLetter_ne_of_isDigit hd) _)
    have hplain : ∀ c ∈ sign, c ∉ ['/', '#', '<', '\'', '"', '`', '('] ∧ foldLetter c ≠ 'c' := by
      simp only [List.mem_cons, List.not_mem_nil, or_false] at hsign
      rcases hsign with rfl | rfl | rfl
      all_goals exact List.all_iff_forall_prop.mp (by decide)
    exact ⟨_, by simpa using hnumber.signs hplain⟩
  · exact ⟨_, by simpa using h.quoted hinner⟩

/-- The name of a constant is shown as it is written. -/
theorem item {i : ConstItem} (hi : i.IsWritten) (h : Shows t code) :
    ∃ shown, Shows (i.text ++ t) (i.name ++ (" = ".toList ++ shown)) ∧ '(' ∉ shown ∧
      Silent readConst? shown := by
  obtain ⟨shown, hvalue⟩ := h.value hi.value
  have hassigned := hvalue.signs (s := " = ".toList)
    (List.all_iff_forall_prop.mp (by decide))
  have hname := hassigned.word (isIdentPart_of_isIdentifier hi.name) (readConst?_name hi.name shown)
  refine ⟨shown, ?_, hvalue.not_called, hvalue.silent⟩
  simpa [ConstItem.text] using hname

end Shows

/-- In the code of a statement, the first name stands behind the keyword, and what follows its
equals sign is silent. -/
theorem exists_shows (first : ConstItem) (rest : List ConstItem)
    (h : ∀ i ∈ first :: rest, i.IsWritten) :
    ∃ shown, Shows (Text.join ", ".toList ((first :: rest).map ConstItem.text) ++ [';'])
      (first.name ++ (" = ".toList ++ shown)) ∧ '(' ∉ shown ∧ Silent readConst? shown := by
  induction rest generalizing first with
  | nil => simpa [Text.join] using Shows.semicolon.item (h first List.mem_cons_self)
  | cons second rest ih =>
    rw [List.forall_mem_cons] at h
    obtain ⟨shown, hshows, -⟩ := ih second h.2
    have hcomma := hshows.signs (s := ", ".toList)
      (List.all_iff_forall_prop.mp (by decide))
    simpa [Text.join] using hcomma.item h.1

/-- The search finds the first name and goes on behind its equals sign, where it finds nothing. -/
theorem findAllWords_readConst? (h : isIdentifier name = true) (hs : Silent readConst? s) :
    findAllWords readConst? ("const ".toList ++ (name ++ (" = ".toList ++ s))) = [name] := by
  have hfront : "const ".toList ++ (name ++ (" = ".toList ++ s)) =
      'c' :: ("onst ".toList ++ name ++ " =".toList ++ ' ' :: s) := by simp
  have hread := readConst?_statement h s
  have hbehind : Silent readConst? (' ' :: s) :=
    .cons (readConst?_of_foldLetter (by decide) s) hs
  rw [hfront] at hread ⊢
  rw [findAllWords_of_read hread, hbehind]

/-- Of a statement in code, the first name is checked and nothing else. -/
theorem constantNames_statement {first : ConstItem} {rest : List ConstItem}
    (h : ∀ i ∈ first :: rest, i.IsWritten) :
    ∃ code, Uncommented .code (constStatement (first :: rest)) code ∧
      ∀ text, constantNames code text = [first.name] := by
  obtain ⟨shown, hshows, hcalled, hsilent⟩ := exists_shows first rest h
  refine ⟨"const ".toList ++ (first.name ++ (" = ".toList ++ shown)), ?_, fun text => ?_⟩
  · have hsplit : constStatement (first :: rest) = "const ".toList ++
        (Text.join ", ".toList ((first :: rest).map ConstItem.text) ++ [';']) :=
      List.append_assoc ..
    rw [hsplit]
    exact .of_plain (List.all_iff_forall_prop.mp (by decide)) hshows.uncommented
  · have hparen : '(' ∉ "const ".toList ++ (first.name ++ (" = ".toList ++ shown)) := by
      rw [List.mem_append, not_or]
      exact ⟨by decide, hshows.not_called⟩
    rw [constantNames, findAllWords_readConst? (h first List.mem_cons_self).name hsilent,
      findAllWords, silent_readDefineOpen? hparen none]
    rfl

/-- Of what is found line by line, that of one line. -/
theorem filter_flatMap_zipIdx {α β : Type} {f : α × Nat → List β} {line : β → Nat}
    (hline : ∀ entry, ∀ b ∈ f entry, line b = entry.2) {l : List α} {n : Nat} {a : α}
    (ha : l[n]? = some a) (k : Nat) :
    ((l.zipIdx k).flatMap f).filter (fun b => line b = k + n) = f (a, k + n) := by
  obtain ⟨hn, rfl⟩ := List.getElem?_eq_some_iff.mp ha
  have hlength : (l.take n).length = n := List.length_take_of_le hn.le
  have hother {part : List (α × Nat)} (hpart : ∀ entry ∈ part, entry.2 ≠ k + n) :
      (part.flatMap f).filter (fun b => line b = k + n) = [] := by
    rw [List.filter_eq_nil_iff]
    intro b hb
    obtain ⟨entry, hentry, hb⟩ := List.mem_flatMap.mp hb
    rw [hline entry b hb, decide_eq_true_eq]
    exact hpart entry hentry
  have hself : (f (l[n], k + n)).filter (fun b => line b = k + n) = f (l[n], k + n) := by
    rw [List.filter_eq_self]
    intro b hb
    rw [hline _ b hb, decide_eq_true_eq]
  conv_lhs => rw [← List.take_append_drop n l, List.drop_eq_getElem_cons hn]
  rw [List.zipIdx_append, List.zipIdx_cons, hlength, List.flatMap_append, List.flatMap_cons,
    List.filter_append, List.filter_append, hother, hother, hself, List.nil_append,
    List.append_nil]
  · intro entry hentry
    have := List.le_snd_of_mem_zipIdx hentry
    omega
  · intro entry hentry
    have := List.snd_lt_add_of_mem_zipIdx hentry
    omega

section File

variable {ctx : FileContext} {n : Nat} {code text : Text}

/-- The issues of one line are those of the constants of that line, in order. -/
theorem filter_constantNaming (hcode : (codeLines ctx.lines)[n]? = some code)
    (htext : (commentFreeLines ctx.lines)[n]? = some text) :
    (constantNaming ctx).filter (·.line = n + 1) =
      (constantNames code text).filterMap (constantNameIssue? ctx (n + 1)) := by
  have hzip : ((codeLines ctx.lines).zip (commentFreeLines ctx.lines))[n]? = some (code, text) :=
    List.getElem?_zip_eq_some.mpr ⟨hcode, htext⟩
  have hline : ∀ entry : (Text × Text) × Nat, ∀ issue ∈ (constantNames entry.1.1
      entry.1.2).filterMap (constantNameIssue? ctx entry.2), issue.line = entry.2 := by
    intro entry issue hissue
    obtain ⟨name, -, hname⟩ := List.mem_filterMap.mp hissue
    exact line_of_constantNameIssue? hname
  rw [Nat.add_comm n 1]
  exact filter_flatMap_zipIdx hline hzip 1

/-- Of a statement that declares constants, on a line that starts in code, only the first name
is looked at: what is reported of the line is what there is to say of that name. So each name
that is not in constant case is reported, in order and once, exactly if the names behind the
first one are in constant case. -/
theorem const_statement_reported (ctx : FileContext) (n : Nat) {first : ConstItem}
    {rest : List ConstItem} (hitems : ∀ i ∈ first :: rest, i.IsWritten)
    (hline : ctx.lines[n]? = some (constStatement (first :: rest)))
    (hstart : (({} : Scrubber).after (ctx.lines.take n)).mode = .code) :
    (constantNaming ctx).filter (·.line = n + 1) =
        (constantNameIssue? ctx (n + 1) first.name).toList ∧
      ((constantNaming ctx).filter (·.line = n + 1) =
          (first :: rest).filterMap (fun i => constantNameIssue? ctx (n + 1) i.name) ↔
        ∀ i ∈ rest, Naming.isConstantCase i.name = true) := by
  obtain ⟨code, hcode, hnames⟩ := constantNames_statement hitems
  have hshown : (codeLines ctx.lines)[n]? = some code := codeLines_of_uncommented hline hstart hcode
  obtain ⟨text, htext⟩ : ∃ text, (commentFreeLines ctx.lines)[n]? = some text := by
    have hat : (commentFreeLines ctx.lines)[n]? = _ :=
      codes_getElem? { keepLiterals := true } ctx.lines n
    rw [hat, hline]
    exact ⟨_, rfl⟩
  have hfirst : (constantNaming ctx).filter (·.line = n + 1) =
      [first].filterMap fun i => constantNameIssue? ctx (n + 1) i.name := by
    rw [filter_constantNaming hshown htext, hnames]
    rfl
  have hsplit : (first :: rest).filterMap (fun i => constantNameIssue? ctx (n + 1) i.name) =
      [first].filterMap (fun i => constantNameIssue? ctx (n + 1) i.name) ++
        rest.filterMap fun i => constantNameIssue? ctx (n + 1) i.name := by
    rw [← List.filterMap_append, List.singleton_append]
  refine ⟨?_, ?_⟩
  · rw [hfirst, List.filterMap_cons, List.filterMap_nil]
    cases constantNameIssue? ctx (n + 1) first.name <;> rfl
  · rw [hfirst, hsplit, List.self_eq_append_right, List.filterMap_eq_nil_iff]
    simp [constantNameIssue?]

/-- A statement whose first name is misspelled, with a literal that reads like another one. -/
def misnamedItems : List ConstItem :=
  [⟨"maxSize".toList, "-0x1F".toList⟩, ⟨"NOTE".toList, "'it\\'s, const b = 1'".toList⟩]

def misnamedFile : FileContext :=
  { path := Path.ofString "/r/a.php"
    lines := ["<?php".toList, constStatement misnamedItems]
    relativePath := Path.ofString "a.php" }

theorem const_statement_reported_first :
    (∀ i ∈ misnamedItems, i.IsWritten) ∧
      misnamedFile.lines[1]? = some (constStatement misnamedItems) ∧
      (({} : Scrubber).after (misnamedFile.lines.take 1)).mode = .code ∧
      (constantNaming misnamedFile).filter (·.line = 2) =
        (constantNameIssue? misnamedFile 2 "maxSize".toList).toList ∧
      (constantNaming misnamedFile).filter (·.line = 2) =
        misnamedItems.filterMap fun i => constantNameIssue? misnamedFile 2 i.name := by
  have hback : ∀ c ∈ "s, const b = 1".toList, c ∉ ['\'', '\\', '\n'] :=
    List.all_iff_forall_prop.mp (by decide)
  have hfront : ∀ c ∈ "it".toList, c ∉ ['\'', '\\', '\n'] :=
    List.all_iff_forall_prop.mp (by decide)
  have hquoted : IsQuoted '\'' "it\\'s, const b = 1".toList :=
    (IsQuoted.escaped (by decide) (IsQuoted.nil.plain_append hback)).plain_append hfront
  have hitems : ∀ i ∈ misnamedItems, i.IsWritten := by
    simp only [misnamedItems, List.forall_mem_cons]
    exact ⟨⟨by decide, .inl ⟨['-'], '0', "x1F".toList, by decide, by decide, by decide,
      List.all_eq_true.mp rfl⟩⟩, ⟨by decide, .inr ⟨_, rfl, hquoted⟩⟩, by simp⟩
  have hstart : (({} : Scrubber).after (misnamedFile.lines.take 1)).mode = .code := by decide
  obtain ⟨hfirst, hall⟩ := const_statement_reported misnamedFile 1 hitems rfl hstart
  exact ⟨hitems, rfl, hstart, hfirst, hall.mpr (by decide)⟩

/-- A statement whose second name is misspelled. -/
def cappedItems : List ConstItem := [⟨"A".toList, ['1']⟩, ⟨"b".toList, ['2']⟩]

def cappedFile : FileContext :=
  { path := Path.ofString "/r/a.php"
    lines := ["const A = 1, b = 2;".toList]
    relativePath := Path.ofString "a.php" }

/-- The second name is not in constant case, and nothing is reported. -/
theorem const_statement_unreported :
    (∀ i ∈ cappedItems, i.IsWritten) ∧ cappedFile.lines[0]? = some (constStatement cappedItems) ∧
      (({} : Scrubber).after (cappedFile.lines.take 0)).mode = .code ∧
      constantNaming cappedFile = [] ∧
      cappedItems.filterMap (fun i => constantNameIssue? cappedFile 1 i.name) ≠ [] := by
  have hdigit : ∀ d ∈ ['1', '2'], IsInteger [d] := by
    intro d hd
    refine ⟨[], d, [], rfl, by simp, ?_, by simp⟩
    rcases List.mem_pair.mp hd with rfl | rfl <;> decide
  have hitems : ∀ i ∈ cappedItems, i.IsWritten := by
    simp only [cappedItems, List.forall_mem_cons]
    exact ⟨⟨by decide, .inl (hdigit '1' (by simp))⟩, ⟨by decide, .inl (hdigit '2' (by simp))⟩,
      by simp⟩
  exact ⟨hitems, by decide, rfl, by decide +kernel, by decide +kernel⟩

end File

end PhpLint.Check
