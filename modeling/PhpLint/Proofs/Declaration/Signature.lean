import Mathlib.Data.Bool.AllAny
import PhpLint.Proofs.Code.Names
import PhpLint.Proofs.Code.Uncommented
import PhpLint.Proofs.Declaration.ModifierWords

/-!
Function signatures as they are written. A signature has a name, parameters and maybe a
result type; it is written on one line, or with one line for each parameter. What is
recorded of a signature, and how each of its parts is written, is defined here, and each
part is read back from what is written of it.
-/

namespace PhpLint

/-- A type in a signature: one or more qualified names with bars between them, and maybe
a question mark in front. -/
structure SignatureType where
  marked : Bool
  members : List Text
  nonempty : members ≠ []
  qualified : ∀ m ∈ members, Code.isQualifiedName m = true

namespace SignatureType

/-- The type without its question mark. -/
def name (t : SignatureType) : Text := Text.join ['|'] t.members

/-- The type as written. -/
def text (t : SignatureType) : Text := if t.marked then '?' :: t.name else t.name

def admitsNull (t : SignatureType) : Bool :=
  t.marked || t.members.any fun m => Text.eqAsciiCase m "null".toList

end SignatureType

/-- A text that may stand as a default. The scrubber keeps all of it, so that it has no
comment and no heredoc, and every quote in it is closed. Parentheses around it are
matched with each other, every other bracket is closed too, and no comma stands outside
of brackets and quotes. Only within quotes may there be a backtick or a brace. -/
structure IsDefault (d : Text) : Prop where
  nonempty : d ≠ []
  trimmed : Text.trim d = d
  single_line : '\n' ∉ d
  uncommented : Scrubber.scan true .code d = (d, .code)
  unbraced : ∀ c ∈ ['`', '\x7b', '\x7d'], c ∉ scrubLine d
  parentheses : Code.closeParen? ('(' :: d ++ [')']) = some (d, [])
  brackets : (d.foldl Code.Nesting.step {}).atTop = true
  one_part : Code.splitTopLevel ',' d = [d]

structure SignatureParameter where
  name : Text
  type : Option SignatureType
  byReference : Bool
  variadic : Bool
  default : Option Text
  named : Code.isIdentifier name = true
  /-- No member of the type is the keyword of a promoted parameter, in any case. -/
  unpromoted : ∀ t ∈ type, ∀ m ∈ t.members, Text.asciiLower m ∉ Parameter.modifiers.words
  valued : ∀ d ∈ default, IsDefault d

namespace SignatureParameter

/-- The type with a blank behind it. -/
def typed (p : SignatureParameter) : Text :=
  match p.type with
  | some t => t.text ++ [' ']
  | none => []

/-- The type and the marks of a reference and of a variadic parameter. -/
def marks (p : SignatureParameter) : Text :=
  p.typed ++ (if p.byReference then ['&'] else []) ++ (if p.variadic then ['.', '.', '.'] else [])

/-- The default, with the equals sign in front of it. -/
def value (p : SignatureParameter) : Text :=
  match p.default with
  | some d => [' ', '=', ' '] ++ d
  | none => []

/-- The parameter without its default. -/
def front (p : SignatureParameter) : Text := p.marks ++ '$' :: p.name

/-- The parameter as written. -/
def text (p : SignatureParameter) : Text := p.front ++ p.value

/-- What is recorded of the parameter. -/
def parameter (p : SignatureParameter) : Parameter where
  name := p.name
  nullable := p.type.any SignatureType.admitsNull
  declaredType := p.type.map SignatureType.name
  default := p.default
  variadic := p.variadic
  byReference := p.byReference
  promoted := false

end SignatureParameter

/-- The signature of a function. With at most 62 parameters it is not cut off when it is
written with a line for each. -/
structure Signature where
  name : Text
  parameters : List SignatureParameter
  returnType : Option SignatureType
  named : Code.isIdentifier name = true
  distinct : (parameters.map SignatureParameter.name).Nodup
  length_le : parameters.length ≤ 62

namespace Signature

/-- How a signature is laid out. -/
inductive Layout where
  | oneLine
  /-- One line for each parameter, with blanks in front. -/
  | spread (indent : Text) (blank : ∀ c ∈ indent, Text.isBlank c = true)

/-- What stands in front of the opening parenthesis. -/
def head (sig : Signature) : Text := "function ".toList ++ sig.name

/-- What stands behind the closing parenthesis. -/
def tail (sig : Signature) : Text :=
  match sig.returnType with
  | some t => [':', ' '] ++ t.text ++ [' ', '\x7b']
  | none => [' ', '\x7b']

/-- The lines of the signature. -/
def lines (sig : Signature) : Layout → List Text
  | .oneLine =>
    [sig.head ++ '(' :: Text.join [',', ' '] (sig.parameters.map SignatureParameter.text) ++
      ')' :: sig.tail]
  | .spread indent _ =>
    (sig.head ++ ['(']) :: (sig.parameters.map fun p => indent ++ p.text ++ [',']) ++
      [')' :: sig.tail]

/-- What is recorded of the signature. -/
def decl (sig : Signature) (line : Nat) (doc : Option DocBlock) : FunctionDecl where
  line
  name := sig.name
  visibility := none
  isStatic := false
  isAbstract := false
  className := none
  returnType := sig.returnType.map SignatureType.text
  parameters := sig.parameters.map fun p => (p.name, p.parameter)
  doc

end Signature

namespace SignatureType

/-- The characters of types. -/
def isUnionChar (c : Char) : Bool := Code.isQualifiedPart c || c == '|'

theorem isBlank_of_isUnionChar {c : Char} (h : isUnionChar c = true) : Text.isBlank c = false := by
  simp only [isUnionChar, Bool.or_eq_true, beq_iff_eq] at h
  rcases h with h | rfl
  · exact Code.isBlank_of_isQualifiedPart h
  · decide

variable (t : SignatureType)

theorem isUnionChar_of_mem_members {m : Text} (hm : m ∈ t.members) :
    m ≠ [] ∧ ∀ c ∈ m, isUnionChar c = true ∧ c ≠ '|' := by
  obtain ⟨hne, hparts⟩ := Code.isQualifiedPart_of_isQualifiedName (t.qualified m hm)
  refine ⟨hne, fun c hc => ⟨by simp [isUnionChar, hparts c hc], ?_⟩⟩
  rintro rfl
  cases hparts '|' hc

theorem isUnionChar_name : ∀ c ∈ t.name, isUnionChar c = true := by
  intro c hc
  rcases Text.mem_join hc with hbar | ⟨m, hm, hc⟩
  · rw [List.mem_singleton.mp hbar]
    rfl
  · exact ((t.isUnionChar_of_mem_members hm).2 c hc).1

theorem name_ne_nil : t.name ≠ [] := by
  obtain ⟨m, more, hmembers⟩ := List.exists_cons_of_ne_nil t.nonempty
  have hm := (t.isUnionChar_of_mem_members (m := m) (by simp [hmembers])).1
  unfold name
  rw [hmembers]
  cases more with
  | nil => exact hm
  | cons q more => simp [Text.join]

theorem splitTopLevel_name : Code.splitTopLevel '|' t.name = t.members := by
  refine Code.splitTopLevel_join (by decide) t.nonempty ?_
  intro m hm n htop
  refine Code.IsPart.of_plain htop fun c hc => ?_
  obtain ⟨hunion, hbar⟩ := (t.isUnionChar_of_mem_members hm).2 c hc
  exact ⟨Text.not_mem_of_class hunion rfl, hbar⟩

theorem trim_member {m : Text} (hm : m ∈ t.members) : Text.trim m = m := by
  have hblank : ∀ c ∈ m, Text.isBlank c = false := fun c hc =>
    isBlank_of_isUnionChar ((t.isUnionChar_of_mem_members hm).2 c hc).1
  exact Text.trim_of_not_blank hblank

/-- Whether a type admits null, and its name, are read back. -/
theorem readNullable_text : Parameter.readNullable t.text = (t.admitsNull, t.name) := by
  have hstart : Text.trimStart t.name = t.name := by
    refine Text.trimStart_eq_self fun c hc => ?_
    exact isBlank_of_isUnionChar (t.isUnionChar_name c (List.mem_of_mem_head? hc))
  have hmembers : (t.members.any fun m => Text.eqAsciiCase (Text.trim m) "null".toList) =
      t.members.any fun m => Text.eqAsciiCase m "null".toList := by
    have hmap : t.members.map Text.trim = t.members :=
      (List.map_congr_left fun m hm => t.trim_member hm).trans (List.map_id t.members)
    conv_rhs => rw [← hmap, List.any_map]
    rfl
  unfold text admitsNull
  cases t.marked with
  | true =>
    rw [if_pos rfl, Parameter.readNullable]
    simp only [hstart, splitTopLevel_name, hmembers]
  | false =>
    have hplain : ∀ rest, t.name ≠ '?' :: rest := by
      intro rest hname
      cases t.isUnionChar_name '?' (by simp [hname])
    simp only [Bool.false_eq_true, if_false, Parameter.readNullable, splitTopLevel_name, hmembers]

/-- The characters of types with a question mark. -/
def isTypeChar (c : Char) : Bool := isUnionChar c || c == '?'

theorem isTypeChar_text : ∀ c ∈ t.text, isTypeChar c = true := by
  have hname : ∀ c ∈ t.name, isTypeChar c = true := fun c hc => by
    simp [isTypeChar, t.isUnionChar_name c hc]
  unfold text
  split
  · exact List.forall_mem_cons.mpr ⟨rfl, hname⟩
  · exact hname

theorem isBlank_of_isTypeChar {c : Char} (h : isTypeChar c = true) : Text.isBlank c = false := by
  simp only [isTypeChar, Bool.or_eq_true, beq_iff_eq] at h
  rcases h with h | rfl
  · exact isBlank_of_isUnionChar h
  · decide

theorem trim_text : Text.trim t.text = t.text :=
  Text.trim_of_not_blank fun c hc => isBlank_of_isTypeChar (t.isTypeChar_text c hc)

/-- Up to case, a type is a keyword only if its only member is. -/
theorem exists_member_of_keyword {word : Text} (hletters : ∀ c ∈ ['\\', '|', '?'], c ∉ word)
    (h : t.text.map Code.foldLetter = word) : ∃ m ∈ t.members, Text.asciiLower m = word := by
  have hfold : ∀ c ∈ ['\\', '|', '?'], Code.foldLetter c = c :=
    List.all_iff_forall_prop.mp (by decide)
  have hsign : ∀ c ∈ ['\\', '|', '?'], c ∉ t.text := by
    intro c hc hmem
    have hword := List.mem_map_of_mem (f := Code.foldLetter) hmem
    rw [hfold c hc, h] at hword
    exact hletters c hc hword
  unfold text at h hsign
  split at h
  · rename_i hmarked
    exact absurd (by simp [hmarked]) (hsign '?' (by simp))
  · rename_i hmarked
    rw [if_neg hmarked] at hsign
    obtain ⟨m, more, hmembers⟩ := List.exists_cons_of_ne_nil t.nonempty
    cases more with
    | cons q more => exact absurd (by simp [name, hmembers, Text.join]) (hsign '|' (by simp))
    | nil =>
      have hname : t.name = m := by rw [name, hmembers, Text.join]
      refine ⟨m, by simp [hmembers], ?_⟩
      rw [← h, hname, Text.asciiLower]
      refine List.map_congr_left fun c hc => (Code.foldLetter_of_isIdentPart ?_).symm
      have hbackslash : c ≠ '\\' := by
        rintro rfl
        exact hsign '\\' (by simp) (hname ▸ hc)
      have hunion := (t.isUnionChar_of_mem_members (m := m) (by simp [hmembers])).2 c hc
      simpa [isUnionChar, Code.isQualifiedPart, hbackslash, hunion.2] using hunion.1

/-- No modifier is read where a type stands that is none, however it goes on. -/
theorem readAll_text (h : ∀ m ∈ t.members, Text.asciiLower m ∉ Parameter.modifiers.words)
    (rest : Text) :
    Modifier.readAll Parameter.modifiers (t.text ++ ' ' :: rest) = ([], t.text ++ ' ' :: rest) := by
  have hwords : ∀ word ∈ Parameter.modifiers.words, ∀ c ∈ ['\\', '|', '?'], c ∉ word := by
    have hall : ∀ word ∈ Parameter.modifiers.words,
        ['\\', '|', '?'].all (fun c => c ∉ word) = true := by decide
    exact fun word hword => List.all_iff_forall_prop.mp (hall word hword)
  refine Modifier.readAll_other_word (by decide) (fun c hc => ?_) (fun hword => ?_) rest
  · have hclass := t.isTypeChar_text c hc
    refine ⟨isBlank_of_isTypeChar hclass, ?_⟩
    rintro rfl
    cases hclass
  · obtain ⟨m, hm, hlower⟩ := t.exists_member_of_keyword (hwords _ hword) rfl
    exact h m hm (hlower ▸ hword)

end SignatureType

namespace SignatureParameter

variable (p : SignatureParameter)

/-- The characters of a type with a blank behind it. -/
def isTypedChar (c : Char) : Bool := SignatureType.isTypeChar c || c == ' '

theorem isTypedChar_typed : ∀ c ∈ p.typed, isTypedChar c = true := by
  unfold typed
  split
  · rename_i t _
    intro c hc
    rcases List.mem_append.mp hc with hc | hc
    · simp [isTypedChar, t.isTypeChar_text c hc]
    · rw [List.mem_singleton.mp hc]
      rfl
  · simp

theorem trimEnd_typed : Text.trimEnd p.typed = (p.type.map SignatureType.text).getD [] := by
  unfold typed
  split
  · rename_i t htype
    rw [htype, Text.trimEnd_blank]
    exact Text.trimEnd_eq_self fun c hc =>
      SignatureType.isBlank_of_isTypeChar (t.isTypeChar_text c (List.mem_of_mem_getLast? hc))
  · rename_i htype
    rw [htype]
    rfl

theorem trim_typed : Text.trim p.typed = (p.type.map SignatureType.text).getD [] := by
  unfold typed
  split
  · rename_i t htype
    rw [htype, Text.trim_blank]
    exact t.trim_text
  · rename_i htype
    rw [htype]
    rfl

/-- What is read once the dots of a variadic parameter are taken off. -/
theorem readMarks_eq (s : Text) (variadic : Bool) (hs : '.' ∉ s) :
    Parameter.readMarks (s ++ if variadic then ['.', '.', '.'] else []) =
      ((Text.stripEnd? ['&'] (Text.trimEnd s)).map fun rest =>
        ⟨Text.trim rest, true, variadic⟩).getD ⟨Text.trim (Text.trimEnd s), false, variadic⟩ := by
  cases variadic with
  | true =>
    have hdots : Text.trimEnd (s ++ ['.', '.', '.']) = s ++ ['.', '.', '.'] :=
      Text.trimEnd_eq_self (by simp [show Text.isBlank '.' = false from rfl])
    have hstrip : Text.stripEnd? ['.', '.', '.'] (s ++ ['.', '.', '.']) = some s :=
      Text.stripEnd?_eq_some_iff.mpr rfl
    rw [if_pos rfl, Parameter.readMarks, hdots]
    cases hmark : Text.stripEnd? ['&'] (Text.trimEnd s) with
    | some rest => simp [hstrip, hmark]
    | none => simp [hstrip, hmark]
  | false =>
    have hnone : Text.stripEnd? ['.', '.', '.'] (Text.trimEnd s) = none := by
      refine Text.stripEnd?_of_not_mem (c := '.') (by simp) fun hmem => hs ?_
      exact (Text.dropEndWhile_prefix _ s).subset hmem
    rw [if_neg (by simp), List.append_nil, Parameter.readMarks]
    cases hmark : Text.stripEnd? ['&'] (Text.trimEnd s) with
    | some rest => simp [hnone, hmark]
    | none => simp [hnone, hmark]

/-- The type and the marks in front of the name are read back. -/
theorem readMarks_marks :
    Parameter.readMarks p.marks =
      ⟨(p.type.map SignatureType.text).getD [], p.byReference, p.variadic⟩ := by
  have hdot : '.' ∉ p.typed := fun hc => by cases p.isTypedChar_typed '.' hc
  have hamp : '&' ∉ p.typed := fun hc => by cases p.isTypedChar_typed '&' hc
  rw [marks, readMarks_eq _ _ (by simp [hdot])]
  cases p.byReference with
  | true =>
    have hmark : Text.trimEnd (p.typed ++ ['&']) = p.typed ++ ['&'] :=
      Text.trimEnd_eq_self (by simp [show Text.isBlank '&' = false from rfl])
    have hstrip : Text.stripEnd? ['&'] (p.typed ++ ['&']) = some p.typed :=
      Text.stripEnd?_eq_some_iff.mpr rfl
    rw [if_pos rfl, hmark, hstrip, Option.map_some, Option.getD_some, p.trim_typed]
  | false =>
    have hnone : Text.stripEnd? ['&'] (Text.trimEnd p.typed) = none := by
      refine Text.stripEnd?_of_not_mem (c := '&') (by simp) fun hmem => hamp ?_
      exact (Text.dropEndWhile_prefix _ p.typed).subset hmem
    have htrim : Text.trim (Text.trimEnd p.typed) = (p.type.map SignatureType.text).getD [] := by
      rw [p.trimEnd_typed]
      cases p.type with
      | none => rfl
      | some t => exact t.trim_text
    rw [if_neg (by simp), List.append_nil, hnone, htrim, Option.map_none, Option.getD_none]

/-- How a parameter starts: with its type, or with a mark, or with the dollar sign. -/
theorem front_cases :
    (∃ t rest, p.type = some t ∧ p.front = t.text ++ ' ' :: rest) ∨
      p.type = none ∧ ∃ c rest, c ∈ ['&', '.', '$'] ∧ p.front = c :: rest := by
  unfold front marks typed
  cases p.type with
  | some t =>
    refine .inl ⟨t, (if p.byReference then ['&'] else []) ++
      (if p.variadic then ['.', '.', '.'] else []) ++ '$' :: p.name, rfl, ?_⟩
    simp only [List.append_assoc, List.cons_append, List.nil_append]
  | none =>
    refine .inr ⟨rfl, ?_⟩
    cases p.byReference with
    | true => exact ⟨'&', _, by simp, rfl⟩
    | false =>
      cases p.variadic with
      | true => exact ⟨'.', _, by simp, rfl⟩
      | false => exact ⟨'$', _, by simp, rfl⟩

theorem front_start : ∃ c rest, p.front = c :: rest ∧ Text.isBlank c = false ∧ c ≠ '#' := by
  rcases p.front_cases with ⟨t, rest, -, hfront⟩ | ⟨-, c, rest, hc, hfront⟩
  · cases hname : t.text with
    | nil =>
      unfold SignatureType.text at hname
      split at hname
      · cases hname
      · exact absurd hname t.name_ne_nil
    | cons c more =>
      have hclass := t.isTypeChar_text c (by simp [hname])
      refine ⟨c, _, by rw [hfront, hname]; rfl, SignatureType.isBlank_of_isTypeChar hclass, ?_⟩
      rintro rfl
      cases hclass
  · have hmarks : ∀ c ∈ ['&', '.', '$'], Text.isBlank c = false ∧ c ≠ '#' :=
      List.all_iff_forall_prop.mp (by decide)
    exact ⟨c, rest, hfront, hmarks c hc⟩

theorem readAll_text : Modifier.readAll Parameter.modifiers p.text = ([], p.text) := by
  unfold text
  rcases p.front_cases with ⟨t, rest, htype, hfront⟩ | ⟨-, c, rest, hc, hfront⟩
  · rw [hfront, List.append_assoc, List.cons_append]
    exact t.readAll_text (p.unpromoted t htype) _
  · apply Modifier.readAll_of_anyKeyword?
    rw [hfront]
    simp only [List.mem_cons, List.not_mem_nil, or_false] at hc
    rcases hc with rfl | rfl | rfl <;> rfl

/-- The default is read back. -/
theorem readDefault?_value : Parameter.readDefault? p.value = some p.default := by
  unfold value
  cases hdefault : p.default with
  | none => rfl
  | some d =>
    have hd := p.valued d hdefault
    obtain ⟨hstart, hend⟩ := Text.trimStart_and_trimEnd_of_trim hd.trimmed
    obtain ⟨c, rest, rfl⟩ := List.exists_cons_of_ne_nil hd.nonempty
    have hblank : Text.trimStart (' ' :: c :: rest) = c :: rest := hstart
    have hsign : Text.trimStart ([' ', '=', ' '] ++ c :: rest) = '=' :: ' ' :: c :: rest := rfl
    have hline : (c :: rest).contains '\n' = false := by simpa using hd.single_line
    rw [Parameter.readDefault?, if_neg (by simp), hsign]
    simp only [hblank, hline, hend]
    rfl

/-- A parameter is read back, with blanks in front of it or without. -/
theorem read?_text (promotes : Bool) (indent : Text)
    (hindent : ∀ c ∈ indent, Text.isBlank c = true) :
    Parameter.read? promotes (indent ++ p.text) = some p.parameter := by
  obtain ⟨c, rest, hfront, hblank, hhash⟩ := p.front_start
  have htext : p.text = c :: (rest ++ p.value) := by rw [text, hfront, List.cons_append]
  have htrim : Text.trimStart (indent ++ p.text) = p.text := by
    rw [Text.trimStart_append_of_blank hindent, htext, Text.trimStart_cons_of_not_blank hblank]
  have hattributes : Code.stripAttributes (indent ++ p.text) = p.text := by
    rw [Code.stripAttributes_of_head_ne, htrim]
    rw [htrim, htext]
    simpa using hhash
  have hprefix : ['#', '['].isPrefixOf p.text = false := by
    rw [htext]
    simp [List.isPrefixOf, Ne.symm hhash]
  have hdollar : '$' ∉ p.marks := by
    have htyped : '$' ∉ p.typed := fun hc => by cases p.isTypedChar_typed '$' hc
    simp [marks, htyped]
  have hcut : Text.cut (· == '$') p.text = (p.marks, '$' :: (p.name ++ p.value)) := by
    rw [text, front, List.append_assoc, List.cons_append]
    exact Text.cut_append hdollar _
  have hname : Code.name? (p.name ++ p.value) = some (p.name, p.value) := by
    refine Code.name?_append p.named ?_
    unfold value
    split
    · simp
      decide
    · simp
  have hnullable : Parameter.readNullable ((p.type.map SignatureType.text).getD []) =
      (p.parameter.nullable, (p.type.map SignatureType.name).getD []) := by
    cases htype : p.type with
    | none => simp [parameter, htype, Parameter.readNullable]; decide
    | some t => simp [parameter, htype, t.readNullable_text]
  have htype : (if ((p.type.map SignatureType.name).getD []).isEmpty then none
      else some ((p.type.map SignatureType.name).getD [])) = p.type.map SignatureType.name := by
    cases p.type with
    | none => rfl
    | some t => simp [t.name_ne_nil]
  rw [Parameter.read?]
  simp only [hattributes, hprefix, Bool.false_eq_true, if_false, p.readAll_text, hcut, hname,
    Option.bind_eq_bind, Option.bind_some, p.readDefault?_value, p.readMarks_marks, hnullable,
    htype, List.any_nil, Bool.and_false]
  rfl

end SignatureParameter

end PhpLint
