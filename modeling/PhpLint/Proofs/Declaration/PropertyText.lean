import PhpLint.Proofs.Declaration.ModifierWords
import PhpLint.Proofs.Declaration.Padding
import PhpLint.Proofs.Declaration.PropertyList
import PhpLint.Proofs.Declaration.QualifiedName

/-!
Property statements as they are written: an access keyword, maybe a type, and a list of names.
The modifiers and the type are read back whatever they are called, and of the list that is read
which is what is read of it alone.
-/

namespace PhpLint

/-- The statement that declares properties of a class. -/
structure PropertyStatement where
  access : Text
  visibility : Visibility
  type : Option QualifiedName
  items : List Property.Item
  accessed : Text.asciiLower access = visibility.name.toList
  nonempty : items ≠ []
  written : ∀ item ∈ items, item.Written

namespace PropertyStatement

variable (s : PropertyStatement)

/-- What stands behind the type. -/
def names : Text := Property.listed s.items ++ [';']

/-- What stands behind the access keyword. -/
def typedNames : Text :=
  match s.type with
  | some t => t.text ++ ' ' :: s.names
  | none => s.names

/-- The statement as written. -/
def text : Text := s.access ++ ' ' :: s.typedNames

/-- Whether the type is this modifier, which a property cannot have as its type. -/
def typeIs (word : String) : Bool := s.type.any fun t => Text.asciiLower t.text == word.toList

/-- The type, unless it is a modifier. -/
def declaredType : Option Text :=
  (s.type.map QualifiedName.text).filter fun t =>
    !Property.modifiers.words.contains (Text.asciiLower t)

/-- What is recorded of an item. -/
def property (line : Nat) (className : Text) (item : Property.Item) : Property where
  line
  name := item.name
  visibility := s.visibility
  isStatic := s.typeIs "static"
  readonly := s.typeIs "readonly"
  className
  declaredType := s.declaredType
  default := item.default

/-- Whether the statement has the word of a function or of a constant in it. -/
def mentionsOther : Bool :=
  s.type.any (Property.isOtherMember ·.text) || s.items.any Property.Item.mentionsOther

end PropertyStatement

namespace PropertyStatement

variable (s : PropertyStatement)

theorem isIdentPart_access : ∀ c ∈ s.access, Text.isIdentPart c = true := by
  intro c hc
  have hlower : c.toLower ∈ s.visibility.name.toList := by
    rw [← s.accessed]
    exact List.mem_map_of_mem hc
  have hletters : ∀ v : Visibility, v.name.toList.all Text.isIdentPart = true := by
    intro v
    cases v <;> rfl
  exact Text.isIdentPart_of_toLower (List.all_eq_true.mp (hletters s.visibility) _ hlower)

theorem map_foldLetter_access : s.access.map Code.foldLetter = s.visibility.name.toList := by
  rw [← s.accessed]
  exact List.map_congr_left fun c hc => Code.foldLetter_of_isIdentPart (s.isIdentPart_access c hc)

theorem access_cons : ∃ c rest, s.access = c :: rest ∧ Code.foldLetter c = 'p' := by
  have hfold := s.map_foldLetter_access
  cases haccess : s.access with
  | nil =>
    rw [haccess] at hfold
    cases hv : s.visibility <;> rw [hv] at hfold <;> cases hfold
  | cons c rest =>
    refine ⟨c, rest, rfl, ?_⟩
    rw [haccess] at hfold
    cases hv : s.visibility <;> rw [hv] at hfold <;> exact (List.cons.inj hfold).1

theorem trimmed_access : Text.Trimmed s.access := by
  obtain ⟨c, rest, haccess, -⟩ := s.access_cons
  exact .of_not_blank (by simp [haccess])
    fun d hd => Text.isBlank_of_isIdentPart (s.isIdentPart_access d hd)

theorem isOtherMember_access : Property.isOtherMember s.access = false := by
  obtain ⟨c, rest, haccess, -⟩ := s.access_cons
  rw [Property.isOtherMember, Code.words_of_isIdentPart (by simp [haccess]) s.isIdentPart_access]
  simp only [Code.foldsTo, List.any_cons, List.any_nil, s.map_foldLetter_access]
  cases s.visibility <;> rfl

/-- The words of a statement are those of its type, its names and its defaults. -/
theorem isOtherMember_text : Property.isOtherMember s.text = s.mentionsOther := by
  have hblank : Text.isWord ' ' = false := by decide
  have hnames : Property.isOtherMember s.names = s.items.any Property.Item.mentionsOther := by
    rw [names, Property.isOtherMember_append (by decide), Property.isOtherMember_listed]
    exact Bool.or_false _
  rw [text, Property.isOtherMember_append hblank, s.isOtherMember_access, Bool.false_or, typedNames,
    mentionsOther]
  cases s.type with
  | none => exact hnames
  | some t => rw [Property.isOtherMember_append hblank, hnames, Option.any_some]

theorem names_cons : ∃ c rest, s.names = '$' :: c :: rest ∧ Text.isIdentStart c = true := by
  obtain ⟨item, more, hitems⟩ := List.exists_cons_of_ne_nil s.nonempty
  have hnamed := (s.written item (by simp [hitems])).named
  obtain ⟨c, rest, hname, hc, -⟩ := Code.isIdentifier_iff.mp hnamed
  obtain ⟨behind, hnames⟩ : ∃ behind, s.names = item.text ++ behind := by
    rw [names, Property.listed, hitems, List.map_cons, Text.join_cons]
    exact ⟨_, List.append_assoc _ _ _⟩
  refine ⟨c, rest ++ item.value ++ behind, ?_, hc⟩
  rw [hnames, Property.Item.text, hname]
  simp

section Modifiers

variable {family : Modifier.Family} (hapart : family.Apart)
  (haccess : s.visibility.name.toList ∈ family.words)
  (hdollar : ∀ rest, Code.anyKeyword? family.words ('$' :: rest) = none)
include hapart haccess hdollar

/-- A type that is a modifier of the family is read as one. -/
theorem readAll_text :
    Modifier.readAll family s.text =
      match s.type with
      | none => ([⟨s.access, false⟩], s.names)
      | some t =>
        if Text.asciiLower t.text ∈ family.words then
          ([⟨s.access, false⟩, ⟨t.text, false⟩], s.names)
        else ([⟨s.access, false⟩], t.text ++ ' ' :: s.names) := by
  have hword : s.access.map Code.foldLetter ∈ family.words := by
    rwa [s.map_foldLetter_access]
  have hplain : ∀ c ∈ s.access, Text.isBlank c = false ∧ c ≠ '(' := by
    intro c hc
    have hident := s.isIdentPart_access c hc
    refine ⟨Text.isBlank_of_isIdentPart hident, ?_⟩
    rintro rfl
    cases hident
  obtain ⟨c, rest, hnames, -⟩ := s.names_cons
  have hstart : Text.trimStart s.names = s.names := by
    rw [hnames]
    rfl
  have hnone : Modifier.readAll family s.names = ([], s.names) := by
    rw [hnames]
    exact Modifier.readAll_of_anyKeyword? (hdollar _)
  rw [text, Modifier.readAll_word hapart hplain hword, typedNames]
  cases htype : s.type with
  | none => simp only [hstart, hnone]
  | some t =>
    have htplain : ∀ c ∈ t.text, Text.isBlank c = false ∧ c ≠ '(' := by
      intro c hc
      have hpart := t.isQualifiedPart_text c hc
      refine ⟨Code.isBlank_of_isQualifiedPart hpart, ?_⟩
      rintro rfl
      cases hpart
    have hfold := Code.map_foldLetter_of_isQualifiedPart t.isQualifiedPart_text
    simp only [t.trimmed_text.trimStart_append]
    split
    · rename_i hmodifier
      rw [Modifier.readAll_word hapart htplain (by rwa [hfold]), hstart, hnone]
    · rename_i hmodifier
      rw [Modifier.readAll_other_word hapart htplain (by rwa [hfold])]

end Modifiers

/-- The modifier that stands where the type does. -/
def typeModifiers : List Modifier :=
  match s.type with
  | some t =>
    if Property.modifiers.words.contains (Text.asciiLower t.text) then [⟨t.text, false⟩] else []
  | none => []

theorem any_typeModifiers {word : String} (h : word.toList ∈ Property.modifiers.words) :
    s.typeModifiers.any (·.is word) = s.typeIs word := by
  unfold typeModifiers typeIs
  cases s.type with
  | none => rfl
  | some t =>
    simp only [Option.any_some]
    split
    · simp [Modifier.is]
    · rename_i hother
      have hne : Text.asciiLower t.text ≠ word.toList := fun heq =>
        hother (List.contains_iff_mem.mpr (heq ▸ h))
      simp [hne]

theorem not_mem_newline_names : '\n' ∉ s.names := by
  simp [names, (Property.inline_listed s.written).single_line]

/-- The type and the names are told apart by the first dollar sign. -/
theorem readHead?_of_readAll {ms : List Modifier} (hms : ms ≠ []) {front : Text}
    (hfront : ∀ c ∈ front, (c == '$' || c == '=' || c == ';') = false)
    (hread : Modifier.readAll Property.modifiers s.text = (ms, front ++ s.names)) :
    Property.readHead? s.text = some ⟨ms, Text.trim front, s.names⟩ := by
  obtain ⟨m, more, rfl⟩ := List.exists_cons_of_ne_nil hms
  obtain ⟨c, rest, hnames, hc⟩ := s.names_cons
  have hcut := Text.cut_split hfront (c := '$') rfl (c :: rest)
  have hline : rest.takeWhile (· != '\n') = rest := by
    refine List.takeWhile_eq_self_iff.mpr fun d hd => ?_
    have hne : d ≠ '\n' := by
      rintro rfl
      exact s.not_mem_newline_names (by simp [hnames, hd])
    simpa using hne
  have hstart : Code.isNameStart c = true := by simp [Code.isNameStart, hc]
  have htrim : Text.trimStart s.text = s.text := s.trimmed_access.trimStart_append _
  rw [Property.readHead?, htrim, hread, hnames]
  simp only [hcut, hstart, hline, if_true]

theorem readHead?_text :
    Property.readHead? s.text =
      some ⟨⟨s.access, false⟩ :: s.typeModifiers, s.declaredType.getD [], s.names⟩ := by
  have haccess : s.visibility.name.toList ∈ Property.modifiers.words := by
    cases s.visibility <;> decide
  have hread := s.readAll_text (by decide) haccess fun _ => rfl
  unfold typeModifiers declaredType
  cases htype : s.type with
  | none =>
    simp only [htype] at hread
    rw [← List.nil_append s.names] at hread
    exact s.readHead?_of_readAll (by simp) (by simp) hread
  | some t =>
    simp only [htype] at hread
    by_cases hmodifier : Text.asciiLower t.text ∈ Property.modifiers.words
    · rw [if_pos hmodifier] at hread
      rw [← List.nil_append s.names] at hread
      have hhead := s.readHead?_of_readAll (by simp) (by simp) hread
      have hempty : Text.trim [] = [] := rfl
      simpa [hmodifier, hempty, Option.filter_some] using hhead
    · rw [if_neg hmodifier, List.append_cons] at hread
      have hfront : ∀ c ∈ t.text ++ [' '], (c == '$' || c == '=' || c == ';') = false := by
        intro c hc
        rcases List.mem_append.mp hc with hc | hc
        · have hsigns : c ∉ ['$', '=', ';'] :=
            Text.not_mem_of_class (t.isQualifiedPart_text c hc) rfl
          simpa [not_or, and_assoc] using hsigns
        · rw [List.mem_singleton.mp hc]
          rfl
      have hhead := s.readHead?_of_readAll (by simp) hfront hread
      rw [Text.trim_blank, t.trimmed_text.trim_eq] at hhead
      simpa [hmodifier, Option.filter_some] using hhead

theorem visibility?_access (more : List Modifier) :
    Modifier.visibility? (⟨s.access, false⟩ :: more) = some s.visibility := by
  have hkeyword : Visibility.ofKeyword? s.access = some s.visibility := by
    rw [Visibility.ofKeyword?, s.accessed]
    cases s.visibility <;> rfl
  rw [Modifier.visibility?, List.filter_cons_of_pos (by simp), List.findSome?_cons, hkeyword]

theorem is_access {word : String} (h : word.toList ∉ Modifier.accessWords) :
    Modifier.is ⟨s.access, false⟩ word = false := by
  have haccess : s.visibility.name.toList ∈ Modifier.accessWords := by
    cases s.visibility <;> decide
  have hne : s.visibility.name.toList ≠ word.toList := fun heq => h (heq ▸ haccess)
  simp [Modifier.is, s.accessed, hne]

/-- The properties of a statement: none if the word of a function or of a constant is in it,
else those of its list. -/
theorem read_text (line : Nat) (className : Text) :
    Property.read line className false s.text =
      if s.mentionsOther then []
      else (Property.items s.names).map (s.property line className) := by
  have hmodifier (word : String) (hword : word.toList ∈ Property.modifiers.words)
      (hother : word.toList ∉ Modifier.accessWords) :
      (⟨s.access, false⟩ :: s.typeModifiers).any (·.is word) = s.typeIs word := by
    rw [List.any_cons, s.is_access hother, Bool.false_or, s.any_typeModifiers hword]
  have htype : (if (s.declaredType.getD []).isEmpty then none else some (s.declaredType.getD [])) =
      s.declaredType := by
    cases hdeclared : s.declaredType with
    | none => rfl
    | some t =>
      obtain ⟨hname, -⟩ := Option.filter_eq_some_iff.mp hdeclared
      obtain ⟨n, -, rfl⟩ := Option.map_eq_some_iff.mp hname
      simp [n.trimmed_text.ne_nil]
  rw [Property.read, s.isOtherMember_text, s.readHead?_text]
  simp only [s.visibility?_access, Option.getD_some, hmodifier "static" (by decide) (by decide),
    hmodifier "readonly" (by decide) (by decide), Bool.false_or, htype]
  rfl

section NothingElse

/-- A statement starts with none of the keywords that start with another letter. -/
theorem keyword?_text {word : Text} (h : word.head?.any (· != 'p') = true) :
    Code.keyword? word s.text = none := by
  obtain ⟨c, rest, haccess, hc⟩ := s.access_cons
  cases word with
  | nil => cases h
  | cons k word =>
    have hk : k ≠ 'p' := by simpa using h
    rw [text, haccess, List.cons_append, Code.keyword?, if_neg (by rw [hc]; exact hk.symm)]

theorem anyKeyword?_text {words : List Text}
    (h : words.all (fun word => word.head?.any (· != 'p')) = true) :
    Code.anyKeyword? words s.text = none :=
  List.findSome?_eq_none_iff.mpr fun word hword =>
    s.keyword?_text (List.all_eq_true.mp h word hword)

theorem trimStart_text : Text.trimStart s.text = s.text := s.trimmed_access.trimStart_append _

theorem readHead?_class : ClassDecl.readHead? s.text = none := by
  have hkeyword : Code.anyKeyword? ClassKind.keywords s.text = none :=
    s.anyKeyword?_text (by decide)
  rw [ClassDecl.readHead?, s.trimStart_text,
    Modifier.readAll_of_anyKeyword? (s.anyKeyword?_text (by decide))]
  simp only [hkeyword]
  rfl

/-- Behind the modifiers there is no name of a function: a dollar sign stands there. -/
theorem readHead?_function : FunctionDecl.readHead? s.text = none := by
  have haccess : s.visibility.name.toList ∈ FunctionDecl.modifiers.words := by
    cases s.visibility <;> decide
  have hread := s.readAll_text (by decide) haccess fun _ => rfl
  obtain ⟨c, rest, hnames, -⟩ := s.names_cons
  have hdollar : Code.keyword? "function".toList s.names = none := by
    rw [hnames]
    rfl
  rw [FunctionDecl.readHead?_eq, s.trimStart_text, hread]
  cases s.type with
  | none => simp only [hdollar, Option.bind_none]
  | some t =>
    simp only
    split
    · simp only [hdollar, Option.bind_none]
    · rw [Option.bind_eq_none_iff]
      rintro ⟨w, after⟩ hkeyword
      obtain ⟨happend, hfold⟩ := Code.keyword?_eq_some_iff.mp hkeyword
      obtain ⟨-, rfl⟩ | ⟨d, more, htext, rfl⟩ :=
        Code.eq_append_word happend (by rw [hfold]; decide)
      · rw [hnames]
        rfl
      · have hd := Code.isBlank_of_isQualifiedPart (t.isQualifiedPart_text d (by simp [htext]))
        simp [FunctionDecl.readMarked?, Code.blanks?, hd]

end NothingElse

/-- The scrubber takes nothing out of a statement but the contents of quotes. -/
theorem uncommented_text {indent : Text} (hindent : Code.IsGap indent) :
    ∃ code, Scrubber.Uncommented .code (indent ++ s.text) code ∧
      ∀ c ∈ code, c ∉ ['\x7b', '\x7d'] := by
  have hblank : Code.Inline [' '] := .of_plain (List.all_eq_true.mp rfl)
  have haccess : Code.Inline s.access := .of_class rfl s.isIdentPart_access
  have hlisted : Code.Inline (Property.listed s.items) := Property.inline_listed s.written
  obtain ⟨front, htext, hfront⟩ : ∃ front, indent ++ s.text = front ++ [';'] ∧
      Code.Inline front := by
    unfold text typedNames
    cases s.type with
    | none =>
      refine ⟨indent ++ (s.access ++ ([' '] ++ Property.listed s.items)), by simp [names], ?_⟩
      exact hindent.inline.append (haccess.append (hblank.append hlisted))
    | some t =>
      refine ⟨indent ++ (s.access ++ ([' '] ++ (t.text ++ ([' '] ++ Property.listed s.items)))),
        by simp [names], ?_⟩
      exact hindent.inline.append (haccess.append (hblank.append
        ((Code.Inline.of_class rfl t.isQualifiedPart_text).append (hblank.append hlisted))))
  obtain ⟨code, hcode, hscan⟩ := hfront.uncommented
  refine ⟨code ++ [';'], ?_, ?_⟩
  · rw [htext]
    exact hscan _ _ (.plain (by simp))
  · exact List.forall_mem_append.mpr ⟨hcode, by simp⟩

end PropertyStatement

end PhpLint
