import PhpLint.DocBlock.Parser
import PhpLint.Proofs.Code.Enclosed
import PhpLint.Proofs.Code.Words

/-!
The tags of a doc comment, written and read back. A type ends at the first blank outside of
its brackets, a variable behind its last word character; what follows either of them is a
description. An entry says what one tag tells about the code. Main statement: recording the
tag of an entry records what the entry says.
-/

namespace PhpLint

namespace TypeExpr

theorem raw_addPart (t : TypeExpr) (part : Text) : (addPart t part).raw = t.raw := by
  rw [addPart]
  split
  split <;> rfl

theorem raw_parse (type : Text) : (parse type).raw = Text.trim type := by
  have hfold : ∀ (parts : List Text) (t : TypeExpr), (parts.foldl addPart t).raw = t.raw := by
    intro parts t
    induction parts generalizing t with
    | nil => rfl
    | cons part parts ih => rw [List.foldl_cons, ih, raw_addPart]
  exact hfold _ _

end TypeExpr

namespace DocBlock

/-- Whether all brackets are closed at the end, of which so many are open at the start, and
no blank stands outside of them. -/
def isClosed (depth : Nat) : Text → Bool
  | [] => depth == 0
  | c :: s =>
    !(depth == 0 && Text.isBlank c) &&
      isClosed
        (if Code.isOpening c then depth + 1 else if Code.isClosing c then depth - 1 else depth) s

/-- A type ends where a blank follows. -/
theorem splitType_append {depth : Nat} {type rest : Text} (h : isClosed depth type = true)
    (hrest : ∀ c ∈ rest.head?, Text.isBlank c = true) :
    splitType depth (type ++ rest) = (type, Text.trimStart rest) := by
  induction type generalizing depth with
  | nil =>
    have hdepth : depth = 0 := by simpa [isClosed] using h
    cases rest with
    | nil => rfl
    | cons c rest => rw [List.nil_append, splitType, if_pos ⟨hdepth, hrest c rfl⟩]
  | cons c type ih =>
    rw [isClosed, Bool.and_eq_true] at h
    have hc : ¬(depth = 0 ∧ Text.isBlank c = true) := by simpa [imp_iff_not_or] using h.1
    simp only [List.cons_append, splitType, if_neg hc, ih h.2]

theorem not_bracket {c : Char} (h : c ∉ Code.nestingChars) :
    Code.isOpening c = false ∧ Code.isClosing c = false := by
  simp only [Code.nestingChars, List.mem_cons, List.not_mem_nil, or_false, not_or] at h
  simp [Code.isOpening, Code.isClosing, h]

/-- Brackets are closed by a character that is no blank. -/
theorem not_blank_of_isClosed {depth : Nat} {type : Text} (h : isClosed depth type = true) :
    ∀ c ∈ type.getLast?, Text.isBlank c = false := by
  induction type generalizing depth with
  | nil => simp
  | cons c type ih =>
    rw [isClosed, Bool.and_eq_true] at h
    obtain ⟨hc, hmore⟩ := h
    cases type with
    | cons d type => exact ih hmore
    | nil =>
      simp only [List.getLast?_singleton, Option.mem_def, Option.some.injEq]
      rintro _ rfl
      by_contra hblank
      rw [Bool.not_eq_false] at hblank
      obtain ⟨hopening, hclosing⟩ :=
        not_bracket (Text.not_mem_of_class hblank (by decide : Code.nestingChars.any _ = false))
      simp only [hopening, hclosing, Bool.false_eq_true, if_false, isClosed] at hmore
      simp [hmore, hblank] at hc

/-- Nor does a blank stand at the start, where no bracket is open yet. -/
theorem head_append_of_isClosed {type : Text} (hne : type ≠ []) (h : isClosed 0 type = true)
    (rest : Text) : ∀ c ∈ (type ++ rest).head?, Text.isBlank c = false := by
  obtain ⟨c, type, rfl⟩ := List.exists_cons_of_ne_nil hne
  rw [isClosed, Bool.and_eq_true] at h
  simpa using h.1

theorem trim_of_isClosed {type : Text} (hne : type ≠ []) (h : isClosed 0 type = true) :
    Text.trim type = type := by
  have hhead := head_append_of_isClosed hne h []
  rw [List.append_nil] at hhead
  exact Text.trim_eq_self hhead (not_blank_of_isClosed h)

/-- A text behind a blank, if there is one. -/
def spaced : Option Text → Text
  | none => []
  | some s => ' ' :: s

/-- A description that can be read back. -/
def IsDescription (s : Text) : Prop := s ≠ [] ∧ Text.trim s = s

instance (s : Text) : Decidable (IsDescription s) :=
  inferInstanceAs (Decidable (s ≠ [] ∧ Text.trim s = s))

section Description

variable {description : Option Text}

theorem isBlank_of_spaced (description : Option Text) :
    ∀ c ∈ (spaced description).head?, Text.isBlank c = true := by
  cases description with
  | none => simp [spaced]
  | some s =>
    simp only [spaced, List.head?_cons, Option.mem_def, Option.some.injEq]
    rintro _ rfl
    rfl

theorem trimStart_spaced (h : ∀ s ∈ description, IsDescription s) :
    Text.trimStart (spaced description) = description.getD [] := by
  cases description with
  | none => rfl
  | some s =>
    rw [spaced, Text.trimStart_cons_of_blank rfl]
    exact (Text.trimStart_and_trimEnd_of_trim (h s rfl).2).1

theorem bind_nonBlank (h : ∀ s ∈ description, IsDescription s) :
    description.bind nonBlank = description := by
  cases description with
  | none => rfl
  | some s =>
    obtain ⟨hne, htrim⟩ := h s rfl
    obtain ⟨c, s, rfl⟩ := List.exists_cons_of_ne_nil hne
    rw [Option.bind_some, nonBlank, htrim]

theorem nonBlank_getD (h : ∀ s ∈ description, IsDescription s) :
    nonBlank (description.getD []) = description := by
  cases description with
  | none => rfl
  | some s => exact bind_nonBlank h

end Description

/-- A run of characters of a class ends where another one follows. -/
theorem span_append {p : Char → Bool} {s rest : Text} (hs : ∀ c ∈ s, p c = true)
    (hrest : ∀ c ∈ rest.head?, p c = false) : (s ++ rest).span p = (s, rest) := by
  rw [List.span_eq_takeWhile_dropWhile, List.takeWhile_append_of_pos hs,
    List.dropWhile_append_of_pos hs]
  cases rest with
  | nil => simp
  | cons c rest => simp [hrest c rfl]

/-- A name of a variable. -/
def IsVariable (name : Text) : Prop := name ≠ [] ∧ name.all Text.isWord = true

instance (name : Text) : Decidable (IsVariable name) :=
  inferInstanceAs (Decidable (name ≠ [] ∧ name.all Text.isWord = true))

theorem readVariable?_eq {name : Text} (hname : IsVariable name) {description : Option Text}
    (h : ∀ s ∈ description, IsDescription s) :
    readVariable? ('$' :: (name ++ spaced description)) = some (name, description) := by
  have hspan : (name ++ spaced description).span Text.isWord = (name, spaced description) := by
    refine span_append (List.all_eq_true.mp hname.2) fun c hc => ?_
    by_contra hword
    have hblank := Text.isBlank_of_isWord (Bool.not_eq_false _ ▸ hword)
    rw [isBlank_of_spaced description c hc] at hblank
    cases hblank
  rw [readVariable?, hspan]
  obtain ⟨c, name, rfl⟩ := List.exists_cons_of_ne_nil hname.1
  cases description with
  | none => rfl
  | some s =>
    have htrim : Text.trimStart s = s := (Text.trimStart_and_trimEnd_of_trim (h s rfl).2).1
    have hblank : Text.isBlank ' ' = true := rfl
    simp [spaced, htrim, hblank]

/-- The variable of a parameter tag as it is written. -/
def target (byReference variadic : Bool) (name : Text) (description : Option Text) : Text :=
  (if byReference then ['&'] else []) ++ (if variadic then ['.', '.', '.'] else []) ++
    '$' :: (name ++ spaced description)

theorem readTarget?_eq {name : Text} (hname : IsVariable name) {description : Option Text}
    (h : ∀ s ∈ description, IsDescription s) (byReference variadic : Bool) :
    readTarget? (target byReference variadic name description) =
      some ⟨byReference, variadic, name, description⟩ := by
  have hread := readVariable?_eq hname h
  have hdollar : Text.isBlank '$' = false := rfl
  have hdot : Text.isBlank '.' = false := rfl
  cases byReference <;> cases variadic <;>
    simp [target, readTarget?, Text.strip?, Text.trimStart_cons_of_not_blank, hdollar, hdot, hread]

/-- A type that can be read back. -/
structure IsType (type : Text) : Prop where
  nonempty : type ≠ []
  closed : isClosed 0 type = true
  /-- It cannot be taken for a variable. -/
  not_target : type.head? ≠ some '$' ∧ type.head? ≠ some '&'
  not_dots : ¬['.', '.', '.'] <+: type
  /-- It does not make a parameter variadic. -/
  no_dots_behind : ¬['.', '.', '.'] <:+ type

instance (type : Text) : Decidable (IsType type) :=
  decidable_of_iff (type ≠ [] ∧ isClosed 0 type = true ∧
      (type.head? ≠ some '$' ∧ type.head? ≠ some '&') ∧
      ¬['.', '.', '.'] <+: type ∧ ¬['.', '.', '.'] <:+ type)
    ⟨fun ⟨h, h₁, h₂, h₃, h₄⟩ => ⟨h, h₁, h₂, h₃, h₄⟩, fun ⟨h, h₁, h₂, h₃, h₄⟩ => ⟨h, h₁, h₂, h₃, h₄⟩⟩

namespace IsType

variable {type : Text} (h : IsType type)

include h

theorem head_append (rest : Text) : ∀ c ∈ (type ++ rest).head?, Text.isBlank c = false :=
  head_append_of_isClosed h.nonempty h.closed rest

theorem trim_eq : Text.trim type = type := trim_of_isClosed h.nonempty h.closed

theorem splitParam_eq {rest : Text} (hrest : ∀ c ∈ rest.head?, Text.isBlank c = false) :
    splitParam (type ++ ' ' :: rest) = (type, rest) := by
  have hsplit : splitType 0 (type ++ ' ' :: rest) = (type, rest) := by
    rw [splitType_append h.closed (by simp; rfl), Text.trimStart_cons_of_blank rfl,
      Text.trimStart_eq_self hrest]
  have hdots : ['.', '.', '.'].isPrefixOf type = false := by
    rw [Bool.eq_false_iff]
    exact fun hdots => h.not_dots (List.isPrefixOf_iff_prefix.mp hdots)
  rw [splitParam, hsplit]
  simp [hdots, h.not_target]

end IsType

/-- The characters of qualified names. -/
def isNamePart (c : Char) : Bool := Text.isWord c || c == '\\'

/-- A qualified name of an exception without a backslash in front. -/
structure IsException (name : Text) : Prop where
  nonempty : name ≠ []
  parts : name.all isNamePart = true
  no_lead : name.head? ≠ some '\\'

instance (name : Text) : Decidable (IsException name) :=
  decidable_of_iff (name ≠ [] ∧ name.all isNamePart = true ∧ name.head? ≠ some '\\')
    ⟨fun ⟨h, h₁, h₂⟩ => ⟨h, h₁, h₂⟩, fun ⟨h, h₁, h₂⟩ => ⟨h, h₁, h₂⟩⟩

theorem isClosed_of_plain {s : Text}
    (h : ∀ c ∈ s, Text.isBlank c = false ∧ Code.isOpening c = false ∧ Code.isClosing c = false) :
    isClosed 0 s = true := by
  induction s with
  | nil => rfl
  | cons c s ih =>
    obtain ⟨⟨hblank, hopening, hclosing⟩, hmore⟩ := List.forall_mem_cons.mp h
    simp [isClosed, hblank, hopening, hclosing, ih hmore]

namespace IsException

variable {name : Text} (h : IsException name)

include h

theorem not_blank : ∀ c ∈ name, Text.isBlank c = false := by
  intro c hc
  have hpart := List.all_eq_true.mp h.parts c hc
  simp only [isNamePart, Bool.or_eq_true, beq_iff_eq] at hpart
  rcases hpart with hword | rfl
  · exact Text.isBlank_of_isWord hword
  · rfl

theorem plain : ∀ c ∈ name, c ∉ Code.nestingChars ∧ c ≠ '|' :=
  fun c hc => Code.plain_of_class (by decide) (List.all_eq_true.mp h.parts c hc)

theorem isClosed_eq : isClosed 0 name = true :=
  isClosed_of_plain fun c hc => ⟨h.not_blank c hc, not_bracket (h.plain c hc).1⟩

theorem head_append (rest : Text) : ∀ c ∈ (name ++ rest).head?, Text.isBlank c = false :=
  head_append_of_isClosed h.nonempty h.isClosed_eq rest

theorem trim_eq : Text.trim name = name := trim_of_isClosed h.nonempty h.isClosed_eq

theorem splitTopLevel_eq : Code.splitTopLevel '|' name = [name] :=
  (Code.IsPart.of_plain rfl h.plain).split_eq

/-- One exception is recorded under its short name. -/
theorem addThrows_eq {description : Option Text} (hdescription : ∀ s ∈ description, IsDescription s)
    (throws : Keyed Text ThrowsTag) :
    addThrows (description.getD []) throws name =
      throws.insert (shortName name) { type := TypeExpr.parse name, description } := by
  have hlead : name.dropWhile (· == '\\') = name := by
    have hhead := h.no_lead
    cases name with
    | nil => rfl
    | cons c name =>
      have hc : c ≠ '\\' := by simpa using hhead
      simp [hc]
  have hne : name.isEmpty = false := List.isEmpty_eq_false_iff.mpr h.nonempty
  simp only [addThrows, h.trim_eq, hlead, hne, nonBlank_getD hdescription, Bool.false_eq_true,
    if_false]

end IsException

/-- What one tag of a doc comment tells. -/
inductive Entry where
  | param (type : Text) (byReference variadic : Bool) (name : Text) (description : Option Text)
  | returns (type : Text) (description : Option Text)
  | throws (exception : Text) (description : Option Text)
  | other (name body : Text)
  deriving DecidableEq, Repr

/-- The names of the tags that say something about the code. -/
def knownNames : List Text := ["param", "return", "throws", "var", "deprecated"].map String.toList

/-- The bodies of all other tags are kept as they are. -/
theorem addTag_of_not_known {tag : Tag} (hname : tag.name ∉ knownNames) (doc : DocBlock) :
    addTag doc tag = { doc with tags := doc.tags.push tag.name tag.body } := by
  have hnot : ∀ known ∈ knownNames, tag.name ≠ known := fun known hknown hsame =>
    hname (hsame ▸ hknown)
  simp only [knownNames, List.map_cons, List.map_nil, List.forall_mem_cons] at hnot
  obtain ⟨hparam, hreturn, hthrows, hvar, hdeprecated, -⟩ := hnot
  rw [addTag, if_neg hparam, if_neg hreturn, if_neg hthrows, if_neg hvar, if_neg hdeprecated]

/-- Whether a text is a name of a tag. -/
def isTagName : Text → Bool
  | [] => false
  | c :: s => c.isAlpha && s.all isTagPart

namespace Entry

/-- The name of the tag. -/
def tagName : Entry → Text
  | .param .. => "param".toList
  | .returns .. => "return".toList
  | .throws .. => "throws".toList
  | .other name _ => name

/-- The body of the tag. -/
def body : Entry → Text
  | .param type byReference variadic name description =>
    type ++ ' ' :: target byReference variadic name description
  | .returns type description => type ++ spaced description
  | .throws exception description => exception ++ spaced description
  | .other _ body => body

/-- The tag as it is written. -/
def line (e : Entry) : Text := '@' :: e.tagName ++ ' ' :: e.body

/-- An entry whose parts can be told apart. -/
def IsReadable : Entry → Prop
  | .param type _ _ name description =>
    IsType type ∧ IsVariable name ∧ ∀ s ∈ description, IsDescription s
  | .returns type description => IsType type ∧ ∀ s ∈ description, IsDescription s
  | .throws exception description => IsException exception ∧ ∀ s ∈ description, IsDescription s
  | .other name _ => isTagName name = true ∧ name ∉ knownNames

instance : (e : Entry) → Decidable e.IsReadable
  | .param type _ _ name description => inferInstanceAs (Decidable
      (IsType type ∧ IsVariable name ∧ ∀ s ∈ description, IsDescription s))
  | .returns type description => inferInstanceAs (Decidable
      (IsType type ∧ ∀ s ∈ description, IsDescription s))
  | .throws exception description => inferInstanceAs (Decidable
      (IsException exception ∧ ∀ s ∈ description, IsDescription s))
  | .other name _ => inferInstanceAs (Decidable (isTagName name = true ∧ name ∉ knownNames))

/-- The type that an entry is about. -/
def type? : Entry → Option Text
  | .param type .. | .returns type _ | .throws type _ => some type
  | .other .. => none

/-- The parameter that an entry tells about. -/
def param? : Entry → Option ParamTag
  | .param type byReference variadic name description =>
    some { name, type := TypeExpr.parse type, description, variadic, byReference }
  | _ => none

def returns? : Entry → Option ReturnTag
  | .returns type description => some { type := TypeExpr.parse type, description }
  | _ => none

def throws? : Entry → Option ThrowsTag
  | .throws exception description => some { type := TypeExpr.parse exception, description }
  | _ => none

/-- The name and the body of a tag that tells nothing about the code; white space around the
body does not count. -/
def other? : Entry → Option (Text × Text)
  | .other name body => some (name, Text.trim body)
  | _ => none

/-- Records what an entry tells. -/
def record (doc : DocBlock) (e : Entry) : DocBlock :=
  { doc with
    params := e.param?.elim doc.params fun p => doc.params.insert p.name p
    returns := e.returns?.or doc.returns
    throws := e.throws?.elim doc.throws fun t => doc.throws.insert t.shortName t
    tags := e.other?.elim doc.tags fun (name, body) => doc.tags.push name body }

theorem isTagName_tagName {e : Entry} (h : e.IsReadable) : isTagName e.tagName = true := by
  cases e with
  | other => exact h.1
  | _ => rfl

/-- A line is a tag with the name and the body that were written. -/
theorem readTag?_line {e : Entry} (h : e.IsReadable) :
    readTag? e.line = some ⟨e.tagName, Text.trim e.body⟩ := by
  have hisName := isTagName_tagName h
  obtain ⟨c, s, hname⟩ := List.exists_cons_of_ne_nil fun hnil : e.tagName = [] => by
    rw [hnil] at hisName
    cases hisName
  rw [hname, isTagName, Bool.and_eq_true, List.all_eq_true] at hisName
  obtain ⟨hc, hs⟩ := hisName
  have hspan : (s ++ ' ' :: e.body).span isTagPart = (s, ' ' :: e.body) :=
    span_append hs (by simp; decide)
  have htrim : Text.trim (' ' :: e.body) = Text.trim e.body := by
    rw [Text.trim, Text.trimStart_cons_of_blank rfl, Text.trim]
  have hblank : Text.isBlank ' ' = true := rfl
  rw [line, hname, List.cons_append, List.cons_append, readTag?, hspan]
  simp [hc, hblank, htrim]

/-- The type is kept as it is written. -/
theorem raw_type {e : Entry} (h : e.IsReadable) :
    ∀ type ∈ e.type?, (TypeExpr.parse type).raw = type := by
  intro type htype
  rw [TypeExpr.raw_parse]
  cases e with
  | other => cases htype
  | throws => exact Option.some.inj htype ▸ h.1.trim_eq
  | _ => exact Option.some.inj htype ▸ h.1.trim_eq

/-- Behind the last body no white space stands. -/
theorem trim_body {e : Entry} (hhead : ∀ c ∈ e.body.head?, Text.isBlank c = false)
    (hend : ∀ c ∈ e.line.getLast?, Text.isBlank c = false) : Text.trim e.body = e.body := by
  refine Text.trim_eq_self hhead fun c hc => hend c ?_
  obtain ⟨front, hbody⟩ := List.getLast?_eq_some_iff.mp hc
  rw [line, hbody, ← List.cons_append, ← List.append_assoc]
  exact List.getLast?_concat

theorem addTag_param {tagName : Text} (htag : tagName = "param".toList) {type name : Text}
    {description : Option Text} (htype : IsType type) (hname : IsVariable name)
    (h : ∀ s ∈ description, IsDescription s) (byReference variadic : Bool) (doc : DocBlock) :
    addTag doc ⟨tagName, type ++ ' ' :: target byReference variadic name description⟩ =
      record doc (.param type byReference variadic name description) := by
  have htarget : ∀ c ∈ (target byReference variadic name description).head?,
      Text.isBlank c = false := by
    cases byReference <;> cases variadic <;> simp [target] <;> decide
  have hdots : (Text.stripEnd? ['.', '.', '.'] type).isSome = false := by
    rw [Option.isSome_eq_false_iff, Option.isNone_iff_eq_none, Option.eq_none_iff_forall_ne_some]
    intro front hfront
    exact htype.no_dots_behind ⟨front, (Text.stripEnd?_eq_some_iff.mp hfront).symm⟩
  have hread : readParam? (type ++ ' ' :: target byReference variadic name description) =
      some { name, type := TypeExpr.parse type, description, variadic, byReference } := by
    simp [readParam?, htype.splitParam_eq htarget, readTarget?_eq hname h, bind_nonBlank h, hdots]
  rw [addTag, if_pos htag, hread]
  rfl

theorem addTag_returns {tagName : Text} (htag : tagName = "return".toList) {type : Text}
    {description : Option Text} (htype : IsType type) (h : ∀ s ∈ description, IsDescription s)
    (doc : DocBlock) :
    addTag doc ⟨tagName, type ++ spaced description⟩ =
      record doc (.returns type description) := by
  have hsplit := splitType_append htype.closed (isBlank_of_spaced description)
  have hne : type.isEmpty = false := List.isEmpty_eq_false_iff.mpr htype.nonempty
  have hother : tagName ≠ "param".toList := by
    rw [htag]
    decide
  rw [addTag, if_neg hother, if_pos htag, hsplit, trimStart_spaced h]
  simp only [hne, nonBlank_getD h, Bool.false_eq_true, if_false]
  rfl

theorem addTag_throws {tagName : Text} (htag : tagName = "throws".toList) {exception : Text}
    {description : Option Text} (hexception : IsException exception)
    (h : ∀ s ∈ description, IsDescription s) (doc : DocBlock) :
    addTag doc ⟨tagName, exception ++ spaced description⟩ =
      record doc (.throws exception description) := by
  have hsplit := splitType_append hexception.isClosed_eq (isBlank_of_spaced description)
  have hshort : ThrowsTag.shortName { type := TypeExpr.parse exception, description } =
      shortName exception := by
    rw [ThrowsTag.shortName, TypeExpr.raw_parse, hexception.trim_eq]
  have hother : tagName ≠ "param".toList ∧ tagName ≠ "return".toList := by
    rw [htag]
    decide
  rw [addTag, if_neg hother.1, if_neg hother.2, if_pos htag, hsplit, trimStart_spaced h]
  simp only [hexception.splitTopLevel_eq, List.foldl_cons, List.foldl_nil,
    hexception.addThrows_eq h]
  simp only [record, param?, returns?, throws?, other?, hshort, Option.elim]
  rfl

theorem addTag_other {name : Text} (hname : name ∉ knownNames) (body : Text) (doc : DocBlock) :
    addTag doc ⟨name, Text.trim body⟩ = record doc (.other name body) := by
  rw [addTag_of_not_known hname]
  rfl

/-- Recording a tag records what its entry tells. -/
theorem addTag_eq {e : Entry} (h : e.IsReadable)
    (hend : ∀ c ∈ e.line.getLast?, Text.isBlank c = false) (doc : DocBlock) :
    addTag doc ⟨e.tagName, Text.trim e.body⟩ = e.record doc := by
  cases e with
  | param type byReference variadic name description =>
    obtain ⟨htype, hname, hdescription⟩ := h
    rw [trim_body (htype.head_append _) hend]
    exact addTag_param rfl htype hname hdescription byReference variadic doc
  | returns type description =>
    obtain ⟨htype, hdescription⟩ := h
    rw [trim_body (htype.head_append _) hend]
    exact addTag_returns rfl htype hdescription doc
  | throws exception description =>
    obtain ⟨hexception, hdescription⟩ := h
    rw [trim_body (hexception.head_append _) hend]
    exact addTag_throws rfl hexception hdescription doc
  | other name body => exact addTag_other h.2 body doc

end Entry

end DocBlock

end PhpLint
