import PhpLint.Declaration.Import
import PhpLint.Declaration.Property
import PhpLint.Proofs.Declaration.Suffix
import PhpLint.Proofs.Text.Padding

/-!
Declarations with a blank behind them. A blank at the end of a line changes nothing of
what the line declares, with one exception: behind the colon of a result type it makes
a result type without any text.
-/

namespace PhpLint

namespace Modifier

/-- A text that is a modifier and nothing more. -/
def Bare (words : List Text) (s : Text) : Prop :=
  ∃ word ∈ words, s.map Code.foldLetter = word ∨ s.map Code.foldLetter = word ++ "(set)".toList

theorem setter?_blank (word rest : Text) :
    setter? word (rest ++ [' ']) = (setter? word rest).map (· ++ [' ']) := by
  unfold setter?
  split
  · rw [Code.keyword?_blank (by decide), Option.map_map, Option.map_map]
    rfl
  · rfl

theorem map_foldLetter_of_setter? {word rest after : Text} (h : setter? word rest = some after) :
    rest.map Code.foldLetter = "(set)".toList ++ after.map Code.foldLetter := by
  unfold setter? at h
  split at h
  · obtain ⟨⟨w, rest'⟩, hkeyword, rfl⟩ := Option.map_eq_some_iff.mp h
    exact Code.map_foldLetter_of_keyword? hkeyword
  · cases h

/-- One modifier is read alike in front of a blank, unless the text ends with it. -/
theorem read?_blank {family : Family} (h : ∀ word ∈ family.words, ' ' ∉ word) (s : Text) :
    read? family (s ++ [' ']) = (read? family s).map (fun (m, rest) => (m, Text.pad rest)) ∨
      read? family s = none ∧ Bare family.words s ∧
        ∃ m, read? family (s ++ [' ']) = some (m, []) := by
  unfold read?
  rw [Code.anyKeyword?_blank h]
  cases hword : Code.anyKeyword? family.words s with
  | none => exact .inl rfl
  | some found =>
    obtain ⟨word, rest⟩ := found
    obtain ⟨k, hk, hfold⟩ := Code.map_foldLetter_of_anyKeyword? hword
    have hmark : (if family.setters then setter? word (rest ++ [' ']) else none) =
        (if family.setters then setter? word rest else none).map (· ++ [' ']) := by
      split
      · exact setter?_blank word rest
      · rfl
    simp only [Option.map_some, hmark]
    cases hafter : (if family.setters then setter? word rest else none) with
    | none =>
      cases rest with
      | nil => exact .inr ⟨rfl, ⟨k, hk, .inl (by simpa using hfold)⟩, _, rfl⟩
      | cons c rest =>
        left
        simp only [Option.map_none, Code.blanks?_blank (List.cons_ne_nil c rest), Option.map_map]
        rfl
    | some afterMark =>
      cases afterMark with
      | nil =>
        have hset : setter? word rest = some [] := by
          split at hafter
          · exact hafter
          · cases hafter
        have hrest := map_foldLetter_of_setter? hset
        refine .inr ⟨rfl, ⟨k, hk, .inr ?_⟩, _, rfl⟩
        rw [hfold, hrest, List.map_nil, List.append_nil]
      | cons c after =>
        left
        simp only [Option.map_some, Code.blanks?_blank (List.cons_ne_nil c after), Option.map_map]
        rfl

theorem readAll_nil (family : Family) : readAll family [] = ([], []) := by
  apply readAll_of_read?
  cases hread : read? family [] with
  | none => rfl
  | some found => exact absurd (read?_length hread) (Nat.not_lt_zero _)

/-- All modifiers are read alike in front of a blank, unless the text ends with one; that
one is read only in front of the blank. -/
theorem readAll_pad (family : Family) (h : ∀ word ∈ family.words, ' ' ∉ word) (s : Text) :
    readAll family (Text.pad s) = ((readAll family s).1, Text.pad (readAll family s).2) ∨
      Bare family.words (readAll family s).2 ∧
        ∃ m, readAll family (Text.pad s) = ((readAll family s).1 ++ [m], []) := by
  fun_induction readAll family s with
  | case1 s hnone =>
    by_cases hs : s = []
    · obtain rfl := hs
      exact .inl (readAll_nil family)
    rw [Text.pad_of_ne_nil hs]
    rcases read?_blank h s with hsame | ⟨-, hbare, m, hsome⟩
    · rw [hnone, Option.map_none] at hsame
      exact .inl (readAll_of_read? hsame)
    · refine .inr ⟨hbare, m, ?_⟩
      rw [readAll_of_read?_some hsome, readAll_nil]
      rfl
  | case2 s m rest hread more rest' hall ih =>
    rw [hall] at ih
    have hs : s ≠ [] := by
      rintro rfl
      exact absurd (read?_length hread) (Nat.not_lt_zero _)
    have hblank : read? family (Text.pad s) = some (m, Text.pad rest) := by
      rw [Text.pad_of_ne_nil hs]
      rcases read?_blank h s with hsame | ⟨hnone, -⟩
      · rw [hsame, hread]
        rfl
      · rw [hnone] at hread
        cases hread
    rw [readAll_of_read?_some hblank]
    rcases ih with hsame | ⟨hbare, m', hmore⟩
    · left
      rw [hsame]
    · refine .inr ⟨hbare, m', ?_⟩
      rw [hmore]
      rfl

/-- No keyword of a list starts a modifier, so none is read where only a modifier is left. -/
theorem keyword?_of_bare {words : List Text} {s k : Text} (hs : Bare words s)
    (hk : ∀ word ∈ words, ¬ k <+: word ∧ ¬ k <+: word ++ "(set)".toList) :
    Code.keyword? k s = none := by
  cases hread : Code.keyword? k s with
  | none => rfl
  | some found =>
    have hprefix : k <+: s.map Code.foldLetter :=
      ⟨_, (Code.map_foldLetter_of_keyword? hread).symm⟩
    obtain ⟨word, hmem, hword | hword⟩ := hs
    · exact absurd (hword ▸ hprefix) (hk word hmem).1
    · exact absurd (hword ▸ hprefix) (hk word hmem).2

theorem anyKeyword?_of_bare {words : List Text} {s : Text} (hs : Bare words s)
    {keywords : List Text}
    (h : ∀ k ∈ keywords, ∀ word ∈ words, ¬ k <+: word ∧ ¬ k <+: word ++ "(set)".toList) :
    Code.anyKeyword? keywords s = none :=
  List.findSome?_eq_none_iff.mpr fun k hk => keyword?_of_bare hs (h k hk)

end Modifier

namespace FunctionDecl

/-- What is read of a head behind the name. -/
def readParen? (ms : List Modifier) (name s : Text) : Option Head :=
  match Text.trimStart s with
  | '(' :: rest => some ⟨ms, name, '(' :: rest⟩
  | _ => none

/-- What is read of a head behind the reference mark. -/
def readNamed? (ms : List Modifier) (s : Text) : Option Head :=
  (Code.name? (Text.trimStart s)).bind fun x => readParen? ms x.1 x.2

/-- What is read of a head behind the keyword. -/
def readMarked? (ms : List Modifier) (s : Text) : Option Head :=
  (Code.blanks? s).bind fun s => readNamed? ms ((Text.strip? ['&'] s).getD s)

theorem readHead?_eq (s : Text) :
    readHead? s =
      let (ms, s) := Modifier.readAll modifiers (Text.trimStart s)
      (Code.keyword? "function".toList s).bind fun x => readMarked? ms x.2 :=
  rfl

/-- The head with a blank behind what it leaves over. -/
def Head.blank (head : Head) : Head := { head with rest := head.rest ++ [' '] }

theorem readParen?_blank (ms : List Modifier) (name s : Text) :
    readParen? ms name (s ++ [' ']) = (readParen? ms name s).map Head.blank := by
  rw [readParen?, readParen?, Text.trimStart_blank]
  cases Text.trimStart s with
  | nil => rfl
  | cons c rest =>
    by_cases hparen : c = '('
    · subst hparen
      rfl
    · simp [Text.pad, hparen]

theorem leavesBlank_readNamed? (ms : List Modifier) : Code.LeavesBlank (readNamed? ms) Head.blank :=
  (Code.LeavesBlank.andThen (k := readParen? ms) .name (readParen?_blank ms)).trimStart

theorem leavesBlank_readMarked? (ms : List Modifier) :
    Code.LeavesBlank (readMarked? ms) Head.blank :=
  ((leavesBlank_readNamed? ms).maybeStripped (by decide) (by decide)).blanks

/-- The head of a function leaves a blank at the end over. -/
theorem readHead?_blank (s : Text) :
    readHead? (s ++ [' ']) = (readHead? s).map Head.blank := by
  rw [readHead?_eq, readHead?_eq, Text.trimStart_blank]
  rcases Modifier.readAll_pad modifiers (by decide) (Text.trimStart s) with
    hsame | ⟨hbare, m, hmore⟩
  · rw [hsame]
    exact (Code.LeavesBlank.andThen (k := fun _ => readMarked? _)
      (.keyword (by decide) (by decide)) fun _ => (leavesBlank_readMarked? _).blank).pad _
  · have hnone := Modifier.keyword?_of_bare (k := "function".toList) hbare (by decide)
    rw [hmore]
    simp only [hnone, Option.bind_none, Option.map_none]
    rfl

/-- Only behind a colon does the blank make a result type, and one without any text. -/
theorem readReturnType?_blank (s : Text) :
    readReturnType? (s ++ [' ']) = readReturnType? s ∨
      readReturnType? s = none ∧ readReturnType? (s ++ [' ']) = some [] ∧ [':'] <:+ s := by
  have htail : Text.trimStart s <:+ s := List.dropWhile_suffix _
  unfold readReturnType?
  rw [Text.trimStart_blank]
  cases hs : Text.trimStart s with
  | nil => exact .inl rfl
  | cons c t =>
    by_cases hcolon : c = ':'
    · subst hcolon
      simp only [Text.pad, List.cons_append]
      rcases Text.cut_blank (p := fun c => c == '{' || c == ';') rfl t with
        ⟨hcut, hblank⟩ | ⟨type, mark, rest, hcut, -, hblank⟩
      · rw [hcut, hblank]
        cases t with
        | nil => exact .inr ⟨rfl, rfl, hs ▸ htail⟩
        | cons d t =>
          left
          simp only [List.cons_append]
          rw [← List.cons_append, Text.trim_blank]
      · left
        rw [hcut, hblank]
    · left
      simp [Text.pad, hcolon]

/-- A function without a result type, once it has one without any text. -/
def withBlankType (f : FunctionDecl) : FunctionDecl := { f with returnType := some [] }

/-- A function is read alike in front of a blank, up to a result type that is nothing but
the blank. -/
theorem read?_blank (line : Nat) (owner : Option Text) (s : Text) :
    read? line owner (s ++ [' ']) = read? line owner s ∨
      [':'] <:+ s ∧ ∃ f, read? line owner s = some f ∧ f.returnType = none ∧
        read? line owner (s ++ [' ']) = some f.withBlankType := by
  unfold read?
  rw [readHead?_blank]
  cases hhead : readHead? s with
  | none => exact .inl rfl
  | some head =>
    obtain ⟨tail, hrest, hsuffix⟩ := readHead?_suffix hhead
    simp only [Option.map_some, Option.bind_eq_bind, Option.bind_some, Head.blank,
      Code.closeParen?_blank]
    cases hclose : Code.closeParen? head.rest with
    | none => exact .inl rfl
    | some parts =>
      obtain ⟨inside, after⟩ := parts
      rw [hrest] at hclose
      have htail := Code.closeFrom_eq_append hclose
      have hend : after <:+ head.rest := ⟨'(' :: inside ++ [')'], by simp [hrest, htail]⟩
      simp only [Option.map_some, Option.bind_some]
      rcases readReturnType?_blank after with hsame | ⟨hnone, hblank, hcolon⟩
      · rw [hsame]
        exact .inl rfl
      · rw [hblank]
        exact .inr ⟨hcolon.trans (hend.trans (hrest ▸ hsuffix)), _, rfl, hnone, rfl⟩

end FunctionDecl

namespace Property

theorem readItem?_blank (s : Text) : readItem? (s ++ [' ']) = readItem? s := by
  unfold readItem?
  rw [Text.trimStart_blank]
  cases Text.trimStart s with
  | nil => rfl
  | cons c t =>
    by_cases hdollar : c = '$'
    · subst hdollar
      have hrun := @Code.readRun?_blank Text.isIdentStart Text.isIdentPart rfl rfl t
      simp only [Text.pad, List.cons_append, Code.identifier?, hrun]
      cases Code.readRun? Text.isIdentStart Text.isIdentPart t with
      | none => rfl
      | some found =>
        obtain ⟨name, rest⟩ := found
        simp only [Option.map_some, Option.bind_eq_bind, Option.bind_some, Text.trimStart_blank]
        cases Text.trimStart rest with
        | nil => rfl
        | cons d value =>
          by_cases hequals : d = '='
          · subst hequals
            simp [Text.pad, Text.trim_blank]
          · simp [Text.pad, hequals]
    · simp [Text.pad, hdollar]

theorem dropHooks_blank (s : Text) :
    dropHooks (s ++ [' ']) = dropHooks s ∨ dropHooks (s ++ [' ']) = dropHooks s ++ [' '] := by
  unfold dropHooks
  rcases Text.cut_blank (p := (· == '{')) rfl s with
    ⟨hcut, hblank⟩ | ⟨before, c, rest, hcut, -, hblank⟩
  · right
    simp [hcut, hblank]
  · rw [hcut, hblank]
    cases hequals : before.contains '=' with
    | true =>
      right
      simp only [List.cons_append, List.isEmpty_cons, Bool.false_or, hequals, if_true]
    | false =>
      left
      simp only [List.cons_append, List.isEmpty_cons, Bool.false_or, hequals,
        Bool.false_eq_true, if_false]

theorem filterMap_splitTopLevel_blank (s : Text) :
    (Code.splitTopLevel ',' (s ++ [' '])).filterMap readItem? =
      (Code.splitTopLevel ',' s).filterMap readItem? := by
  obtain ⟨front, last, hs, hblank⟩ := Code.splitTopLevel_blank (show ' ' ≠ ',' by decide) s
  rw [hs, hblank, List.filterMap_append, List.filterMap_append]
  simp [List.filterMap_cons, readItem?_blank]

/-- A list of names is read alike in front of a blank. -/
theorem items_blank (names : Text) : items (names ++ [' ']) = items names := by
  have hlist (s : Text) : (Code.splitTopLevel ',' (dropHooks (s ++ [' ']))).filterMap readItem? =
      (Code.splitTopLevel ',' (dropHooks s)).filterMap readItem? := by
    rcases dropHooks_blank s with hsame | hmore
    · rw [hsame]
    · rw [hmore, filterMap_splitTopLevel_blank]
  obtain ⟨front, last, hs, hblank⟩ := Code.splitTopLevel_blank (show ' ' ≠ ';' by decide) names
  rw [items, items, hs, hblank]
  cases front with
  | nil => exact hlist last
  | cons first front => rfl

/-- The head with a blank behind the names. -/
def Head.blank (head : Head) : Head := { head with names := head.names ++ [' '] }

/-- What is read of a head behind the modifiers. -/
def readNames? (ms : List Modifier) (s : Text) : Option Head :=
  match Text.cut (fun c => c == '$' || c == '=' || c == ';') s with
  | (type, '$' :: c :: rest) =>
    if Code.isNameStart c then some ⟨ms, Text.trim type, '$' :: c :: rest.takeWhile (· != '\n')⟩
    else none
  | _ => none

theorem readHead?_eq (s : Text) :
    readHead? s =
      let (ms, s) := Modifier.readAll modifiers (Text.trimStart s)
      if ms.isEmpty then none else readNames? ms s := by
  rw [readHead?]
  obtain ⟨ms, s⟩ := Modifier.readAll modifiers (Text.trimStart s)
  cases ms <;> rfl

theorem readNames?_blank (ms : List Modifier) (s : Text) :
    readNames? ms (s ++ [' ']) = readNames? ms s ∨
      readNames? ms (s ++ [' ']) = (readNames? ms s).map Head.blank := by
  unfold readNames?
  rcases Text.cut_blank (p := fun c => c == '$' || c == '=' || c == ';') rfl s with
    ⟨hcut, hblank⟩ | ⟨before, c, rest, hcut, -, hblank⟩
  · left
    rw [hcut, hblank]
  · rw [hcut, hblank]
    by_cases hdollar : c = '$'
    · subst hdollar
      cases rest with
      | nil =>
        left
        have hname : Code.isNameStart ' ' = false := by decide
        simp [hname]
      | cons d rest =>
        cases hname : Code.isNameStart d with
        | false => exact .inl (by simp [hname])
        | true =>
          by_cases hlength : (rest.takeWhile (· != '\n')).length = rest.length
          · right
            have hall := (List.takeWhile_prefix (· != '\n')).eq_of_length hlength
            simp [hname, List.takeWhile_append, hall, Head.blank]
          · left
            simp [hname, List.takeWhile_append, hlength]
    · left
      simp [hdollar]

/-- No name is read where only a modifier is left. -/
theorem readNames?_of_bare {ms : List Modifier} {s : Text}
    (hs : Modifier.Bare modifiers.words s) : readNames? ms s = none := by
  have hdollar : '$' ∉ s := by
    intro hmem
    have hfold : '$' ∈ s.map Code.foldLetter := List.mem_map.mpr ⟨'$', hmem, by decide⟩
    have hwords : ∀ word ∈ modifiers.words, '$' ∉ word ∧ '$' ∉ word ++ "(set)".toList := by decide
    obtain ⟨word, hword, heq | heq⟩ := hs
    · exact (hwords word hword).1 (heq ▸ hfold)
    · exact (hwords word hword).2 (heq ▸ hfold)
  unfold readNames?
  split
  · rename_i type c rest hcut
    rcases Text.cut_cases (fun c => c == '$' || c == '=' || c == ';') s with
      ⟨-, hcut'⟩ | ⟨before, d, rest', rfl, -, -, hcut'⟩
    · rw [hcut'] at hcut
      cases hcut
    · rw [hcut'] at hcut
      obtain ⟨rfl, heq⟩ := Prod.mk.inj hcut
      obtain ⟨rfl, -⟩ := List.cons.inj heq
      simp at hdollar
  · rfl

theorem readHead?_blank (s : Text) :
    readHead? (s ++ [' ']) = readHead? s ∨
      readHead? (s ++ [' ']) = (readHead? s).map Head.blank := by
  rw [readHead?_eq, readHead?_eq, Text.trimStart_blank]
  rcases Modifier.readAll_pad modifiers (by decide) (Text.trimStart s) with
    hsame | ⟨hbare, m, hmore⟩
  · rw [hsame]
    obtain ⟨ms, rest⟩ := Modifier.readAll modifiers (Text.trimStart s)
    cases ms with
    | nil => exact .inl rfl
    | cons m ms =>
      cases rest with
      | nil => exact .inl rfl
      | cons c rest => exact readNames?_blank (m :: ms) (c :: rest)
  · left
    rw [hmore]
    change (if _ then none else none) =
      if _ then none else readNames? _ (Modifier.readAll modifiers _).2
    rw [readNames?_of_bare hbare, ite_self, ite_self]

/-- The properties of a line are read alike in front of a blank. -/
theorem read_blank (line : Nat) (className : Text) (classReadonly : Bool) (s : Text) :
    read line className classReadonly (s ++ [' ']) = read line className classReadonly s := by
  have hother : isOtherMember (s ++ [' ']) = isOtherMember s := by
    rw [isOtherMember, isOtherMember, Code.words, Code.words, Code.wordsFrom_blank]
  rw [read, read, hother]
  split
  · rfl
  · rcases readHead?_blank s with hsame | hmore
    · rw [hsame]
    · rw [hmore]
      cases readHead? s with
      | none => rfl
      | some head => simp only [Option.map_some, Head.blank, items_blank]

end Property

namespace Import

/-- What is read of an import statement behind the keyword and its blanks. -/
def readBody? (s : Text) : Option Statement :=
  match Text.cut (· == ';') s with
  | (body, ';' :: _) => some (readBody body)
  | _ => none

theorem leavesBlank_readBody? : Code.LeavesBlank readBody? id where
  nil := rfl
  blank s := by
    unfold readBody?
    rcases Text.cut_blank (p := (· == ';')) rfl s with
      ⟨hcut, hblank⟩ | ⟨before, c, rest, hcut, hc, hblank⟩
    · rw [hcut, hblank]
      rfl
    · obtain rfl : c = ';' := by simpa using hc
      rw [hcut, hblank]
      rfl

/-- An import statement is read alike in front of a blank. -/
theorem readStatement?_blank (line : Text) :
    readStatement? (line ++ [' ']) = readStatement? line := by
  have h : Code.LeavesBlank readStatement? id :=
    (Code.LeavesBlank.andThen (k := fun _ s => (Code.blanks? s).bind readBody?)
      (.keyword (by decide) (by decide)) fun _ => leavesBlank_readBody?.blanks.blank).trimStart
  rw [h.blank, Option.map_id, id]

end Import

end PhpLint
