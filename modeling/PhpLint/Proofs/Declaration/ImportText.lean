import Mathlib.Data.Bool.AllAny
import Mathlib.Data.List.Forall2
import PhpLint.Proofs.Checked.Declaration
import PhpLint.Proofs.Declaration.QualifiedName

/-!
Import statements as they are written. A statement lists items, which may stand below a
common group, and a keyword for all of them may stand in front; an item is a qualified
name, maybe with an alias and, below a group, with a keyword of its own. Every part is
read back from what is written of it, so that a statement gives one import for each of
its items, in their order.
-/

namespace PhpLint

/-- The keywords that may stand in front of a name. -/
inductive ImportKeyword where
  | function
  | const
  deriving DecidableEq

namespace ImportKeyword

def word : ImportKeyword → Text
  | .function => "function".toList
  | .const => "const".toList

def kind : ImportKeyword → ImportKind
  | .function => .function
  | .const => .const

/-- The keyword with a blank behind it, or nothing. -/
def lead : Option ImportKeyword → Text
  | some keyword => keyword.word ++ [' ']
  | none => []

end ImportKeyword

structure ImportItem where
  keyword : Option ImportKeyword
  name : QualifiedName
  asName : Option Text
  /-- The name is no keyword, in any case. -/
  unreserved : Text.asciiLower name.text ∉ ImportKind.keywords
  aliased : ∀ a ∈ asName, Code.isIdentifier a = true

namespace ImportItem

/-- The alias with the word `as` in front of it. -/
def aliasPart (item : ImportItem) : Text :=
  match item.asName with
  | some a => " as ".toList ++ a
  | none => []

/-- The item without its keyword. -/
def plain (item : ImportItem) : Text := item.name.text ++ item.aliasPart

/-- The item as written. -/
def text (item : ImportItem) : Text := ImportKeyword.lead item.keyword ++ item.plain

end ImportItem

/-- A group; a comma may stand behind the last of its items. -/
structure ImportGroup where
  name : QualifiedName
  trailingComma : Bool

/-- An import statement. Only items below a group have keywords of their own. -/
structure ImportStatement where
  keyword : Option ImportKeyword
  group : Option ImportGroup
  items : List ImportItem
  nonempty : items ≠ []
  unmarked : group = none → ∀ item ∈ items, item.keyword = none

namespace ImportStatement

variable (s : ImportStatement)

/-- The items as they are listed. -/
def listed : Text := Text.join [',', ' '] (s.items.map ImportItem.text)

/-- What stands between the keyword and the semicolon. -/
def body : Text :=
  match s.group with
  | some g => g.name.text ++ ['\\', '\x7b'] ++ s.listed ++
      (if g.trailingComma then [','] else []) ++ ['\x7d']
  | none => s.listed

/-- The statement as written. -/
def text : Text := "use ".toList ++ ImportKeyword.lead s.keyword ++ s.body ++ [';']

/-- The name that an item stands for. -/
def nameOf (item : ImportItem) : QualifiedName :=
  match s.group with
  | some g => g.name.below item.name
  | none => item.name

/-- What is recorded of an item. -/
def importOf (line : Nat) (item : ImportItem) : Import where
  line
  fullName := (s.nameOf item).path
  asName := item.asName
  kind := ((item.keyword.or s.keyword).map ImportKeyword.kind).getD .classLike

/-- What is recorded of the statement. -/
def imports (line : Nat) : List Import := s.items.map (s.importOf line)

end ImportStatement

/-- The short name and the namespace of an import make up its full name. -/
theorem Import.shortName_eq {i : Import} {n : QualifiedName} (h : i.fullName = n.path) :
    i.shortName = n.last ∧
      (if i.namespaceName = [] then i.shortName else i.namespaceName ++ '\\' :: i.shortName) =
        i.fullName := by
  have hshort : i.shortName = n.last := by
    rw [shortName, h, n.splitAtChar_path, List.getLast?_eq_some_getLast n.nonempty]
    rfl
  have hspace : i.namespaceName = Text.join ['\\'] n.segments.dropLast := by
    rw [namespaceName, h, n.splitAtChar_path]
  refine ⟨hshort, ?_⟩
  rw [hshort, hspace, h]
  rcases n.path_eq with ⟨hfront, hpath⟩ | ⟨hfront, hpath⟩
  · rw [hfront, hpath]
    rfl
  · obtain ⟨first, more, hcons⟩ := List.exists_cons_of_ne_nil hfront
    have hfirst : first ∈ n.segments := n.segments.dropLast_subset (by simp [hcons])
    obtain ⟨c, t, rfl, -, -⟩ := Code.isIdentifier_iff.mp (n.named first hfirst)
    rw [if_neg (by simp [hcons, Text.join_cons]), hpath]

namespace ImportKeyword

theorem anyKeyword?_word (keyword : ImportKeyword) (rest : Text) :
    Code.anyKeyword? ImportKind.keywords (keyword.word ++ rest) = some (keyword.word, rest) := by
  cases keyword <;> rfl

theorem ofKeyword_word (keyword : ImportKeyword) :
    ImportKind.ofKeyword keyword.word = keyword.kind := by
  cases keyword <;> rfl

/-- A keyword in front of a text puts no blank there. -/
theorem trimmed_lead (keyword : Option ImportKeyword) {s : Text}
    (h : Text.Trimmed s) : Text.Trimmed (lead keyword ++ s) := by
  cases keyword with
  | none => exact h
  | some keyword =>
    have hword : Text.Trimmed keyword.word := by
      cases keyword <;> exact .of_not_blank (by decide) (List.all_iff_forall_prop.mp (by decide))
    exact hword.around h [' ']

end ImportKeyword

section Keyword

variable {name rest : Text}

/-- A keyword with a blank behind it that is read off a name is all of that name. -/
theorem ImportKind.eq_of_keyword (hname : ∀ c ∈ name, Code.isQualifiedPart c = true)
    (hrest : ∀ c ∈ rest.head?, c ∈ [' ', ',', '\\']) {word after : Text} {c : Char}
    (h : Code.anyKeyword? keywords (name ++ rest) = some (word, c :: after))
    (hc : Text.isBlank c = true) : Text.asciiLower name ∈ keywords ∧ rest = c :: after := by
  obtain ⟨happend, hword⟩ := Code.eq_append_of_anyKeyword? h
  rcases List.append_eq_append_iff.mp happend with ⟨more, rfl, hmore⟩ | ⟨more, rfl, hmore⟩
  · cases more with
    | nil =>
      rw [List.append_nil, Code.map_foldLetter_of_isQualifiedPart hname] at hword
      exact ⟨hword, hmore⟩
    | cons d more =>
      -- The keyword goes on behind the name, but not with one of its own letters.
      rw [hmore] at hrest
      have hletter : Code.foldLetter d ∈ (name ++ d :: more).map Code.foldLetter :=
        List.mem_map_of_mem (by simp)
      have hnone : ∀ word ∈ keywords,
          [' ', ',', '\\'].all (fun d => Code.foldLetter d ∉ word) = true := by decide
      exact absurd hletter (List.all_iff_forall_prop.mp (hnone _ hword) d (hrest d rfl))
  · cases more with
    | nil =>
      rw [List.append_nil] at hname ⊢
      rw [← Code.map_foldLetter_of_isQualifiedPart hname]
      exact ⟨hword, hmore.symm⟩
    | cons d more =>
      obtain rfl := (List.cons.inj hmore).1
      rw [Code.isBlank_of_isQualifiedPart (hname c (by simp))] at hc
      cases hc

end Keyword

namespace ImportItem

variable (item : ImportItem)

/-- What is read of the item. -/
def read : Import.Item where
  kind := item.keyword.map ImportKeyword.kind
  name := item.name.text
  asName := item.asName

theorem aliasPart_cases : item.asName = none ∧ item.aliasPart = [] ∨
    ∃ a, item.asName = some a ∧ item.aliasPart = " as ".toList ++ a ∧
      Code.isIdentifier a = true := by
  cases hname : item.asName with
  | none => exact .inl ⟨rfl, by rw [aliasPart, hname]⟩
  | some a => exact .inr ⟨a, rfl, by rw [aliasPart, hname], item.aliased a hname⟩

theorem head?_aliasPart : ∀ c ∈ item.aliasPart.head?, c = ' ' := by
  rcases item.aliasPart_cases with ⟨-, hpart⟩ | ⟨a, -, hpart, -⟩
  · simp [hpart]
  · intro c hc
    rw [hpart] at hc
    exact (Option.some.inj hc).symm

theorem readAlias?_aliasPart {a : Text} (h : Code.isIdentifier a = true) :
    Import.readAlias? (" as ".toList ++ a) = some a := by
  have hend : ∀ c ∈ ([] : Text).head?, Code.isNamePart c = false := by simp
  have hname := Code.name?_append h hend
  have hblanks := Code.blanks?_trimmed (Code.trimmed_of_isIdentifier h) []
  rw [List.append_nil] at hblanks hname
  have hfirst : Code.blanks? (" as ".toList ++ a) = some ("as ".toList ++ a) := rfl
  have hword : Code.keyword? "as".toList ("as ".toList ++ a) = some ("as".toList, ' ' :: a) := rfl
  simp only [Import.readAlias?, hfirst, hword, hblanks, hname, Option.bind_eq_bind,
    Option.bind_some]

/-- A name is read back with its alias. -/
theorem readNamed?_plain (kind : Option ImportKind) :
    Import.readNamed? kind item.plain = some ⟨kind, item.name.text, item.asName⟩ := by
  have hhead : ∀ c ∈ item.aliasPart.head?, Code.isNamePart c = false := fun c hc => by
    rw [item.head?_aliasPart c hc]
    rfl
  have hend : item.aliasPart.head? ≠ some '\\' := fun h => by
    cases item.head?_aliasPart _ h
  have hread := Code.readQualified?_append Code.readsNames_folded hhead hend item.name
  rw [Import.readNamed?, plain, hread]
  rcases item.aliasPart_cases with ⟨hnone, hpart⟩ | ⟨a, hsome, hpart, ha⟩
  · rw [hnone, hpart]
  · rw [hsome, hpart]
    change (Import.readAlias? (" as ".toList ++ a)).map _ = _
    rw [readAlias?_aliasPart ha]
    rfl

/-- No kind is read off a name that is no keyword. -/
theorem not_blank_behind_keyword {rest : Text} (hrest : ∀ c ∈ rest.head?, c ∈ [' ', ',', '\\'])
    {word after : Text} {c : Char}
    (h : Code.anyKeyword? ImportKind.keywords (item.name.text ++ rest) = some (word, c :: after)) :
    Text.isBlank c = false := by
  by_contra hc
  rw [Bool.not_eq_false] at hc
  obtain ⟨hname, -⟩ := ImportKind.eq_of_keyword item.name.isQualifiedPart_text hrest h hc
  exact item.unreserved hname

theorem trimmed_plain : Text.Trimmed item.plain := by
  rcases item.aliasPart_cases with ⟨-, hpart⟩ | ⟨a, -, hpart, ha⟩
  · rw [plain, hpart, List.append_nil]
    exact item.name.trimmed_text
  · rw [plain, hpart, ← List.append_assoc]
    exact item.name.trimmed_text.around (Code.trimmed_of_isIdentifier ha) _

/-- An item is read back. -/
theorem readItem?_text : Import.readItem? item.text = some item.read := by
  cases hkeyword : item.keyword with
  | none =>
    have htext : item.text = item.plain := by
      rw [text, hkeyword]
      rfl
    have hhead : ∀ c ∈ item.aliasPart.head?, c ∈ [' ', ',', '\\'] := fun c hc => by
      simp [item.head?_aliasPart c hc]
    -- What is read as a keyword is only a part of the name, and no blank stands behind that.
    have hkeyed (found : Text × Text)
        (h : Code.anyKeyword? ImportKind.keywords item.plain = some found) :
        Code.blanks? found.2 = none := by
      obtain ⟨word, rest⟩ := found
      cases rest with
      | nil => rfl
      | cons c rest =>
        rw [Code.blanks?, item.not_blank_behind_keyword hhead h]
        rfl
    rw [Import.readItem?, htext, read, hkeyword, ← item.readNamed?_plain]
    cases hfound : Code.anyKeyword? ImportKind.keywords item.plain with
    | none => rfl
    | some found => simp [hkeyed found hfound]
  | some keyword =>
    have htext : item.text = keyword.word ++ ' ' :: item.plain := by
      simp [text, hkeyword, ImportKeyword.lead]
    have hword := keyword.anyKeyword?_word (' ' :: item.plain)
    have hblanks := Code.blanks?_trimmed item.trimmed_plain []
    have hnamed := item.readNamed?_plain (some keyword.kind)
    rw [List.append_nil] at hblanks
    rw [Import.readItem?, htext]
    simp [hword, hblanks, keyword.ofKeyword_word, hnamed, read, hkeyword]

theorem trimmed_text : Text.Trimmed item.text :=
  ImportKeyword.trimmed_lead item.keyword item.trimmed_plain

/-- The characters of items. -/
def isItemPart (c : Char) : Bool := Code.isQualifiedPart c || c == ' '

theorem isItemPart_lead (keyword : Option ImportKeyword) :
    ∀ c ∈ ImportKeyword.lead keyword, isItemPart c = true := by
  rcases keyword with _ | _ | _ <;> exact List.all_eq_true.mp rfl

theorem isItemPart_text : ∀ c ∈ item.text, isItemPart c = true := by
  have hname : ∀ c ∈ item.name.text, isItemPart c = true := fun c hc => by
    simp [isItemPart, item.name.isQualifiedPart_text c hc]
  have hpart : ∀ c ∈ item.aliasPart, isItemPart c = true := by
    rcases item.aliasPart_cases with ⟨-, hpart⟩ | ⟨a, -, hpart, ha⟩
    · simp [hpart]
    · rw [hpart]
      refine List.forall_mem_append.mpr ⟨List.all_eq_true.mp rfl, fun c hc => ?_⟩
      simp [isItemPart, Code.isQualifiedPart, Code.isIdentPart_of_isIdentifier ha c hc]
  exact List.forall_mem_append.mpr
    ⟨isItemPart_lead item.keyword, List.forall_mem_append.mpr ⟨hname, hpart⟩⟩

end ImportItem

namespace ImportStatement

variable (s : ImportStatement)

/-- The characters of lists of items. -/
def isListPart (c : Char) : Bool := ImportItem.isItemPart c || c == ','

/-- The characters of statements before the semicolon. -/
def isBodyPart (c : Char) : Bool := isListPart c || c == '\x7b' || c == '\x7d'

theorem isListPart_listed : ∀ c ∈ s.listed, isListPart c = true := by
  intro c hc
  rcases Text.mem_join hc with hc | ⟨t, ht, hc⟩
  · have hsep : ∀ c ∈ [',', ' '], isListPart c = true := List.all_eq_true.mp rfl
    exact hsep c hc
  · obtain ⟨item, -, rfl⟩ := List.mem_map.mp ht
    simp [isListPart, item.isItemPart_text c hc]

theorem isBodyPart_body : ∀ c ∈ s.body, isBodyPart c = true := by
  have hlisted : ∀ c ∈ s.listed, isBodyPart c = true := fun c hc => by
    simp [isBodyPart, s.isListPart_listed c hc]
  unfold body
  cases hgroup : s.group with
  | none => exact hlisted
  | some g =>
    have hname : ∀ c ∈ g.name.text, isBodyPart c = true := fun c hc => by
      simp [isBodyPart, isListPart, ImportItem.isItemPart, g.name.isQualifiedPart_text c hc]
    have hcomma : ∀ c ∈ if g.trailingComma then [','] else [], isBodyPart c = true := by
      cases g.trailingComma <;> exact List.all_eq_true.mp rfl
    simp only [List.forall_mem_append]
    exact ⟨⟨⟨⟨hname, List.all_eq_true.mp rfl⟩, hlisted⟩, hcomma⟩, List.all_eq_true.mp rfl⟩

theorem isBodyPart_front : ∀ c ∈ ImportKeyword.lead s.keyword ++ s.body, isBodyPart c = true := by
  refine List.forall_mem_append.mpr ⟨fun c hc => ?_, s.isBodyPart_body⟩
  simp [isBodyPart, isListPart, ImportItem.isItemPart_lead s.keyword c hc]

theorem trimmed_listed : Text.Trimmed s.listed := by
  refine .join (by simp [s.nonempty]) fun t ht => ?_
  obtain ⟨item, -, rfl⟩ := List.mem_map.mp ht
  exact item.trimmed_text

theorem trimmed_body : Text.Trimmed s.body := by
  unfold body
  cases s.group with
  | none => exact s.trimmed_listed
  | some g =>
    have hbrace : Text.Trimmed ['\x7d'] := .singleton rfl
    have hbody := g.name.trimmed_text.around hbrace
      (['\\', '\x7b'] ++ s.listed ++ if g.trailingComma then [','] else [])
    simpa only [List.append_assoc] using hbody

/-- The kind that stands in front of all items. -/
def kind : ImportKind := (s.keyword.map ImportKeyword.kind).getD .classLike

/-- No kind is read off a body. -/
theorem not_blank_behind_keyword {word after : Text} {c : Char}
    (h : Code.anyKeyword? ImportKind.keywords s.body = some (word, c :: after)) :
    Text.isBlank c = false := by
  cases hgroup : s.group with
  | some g =>
    simp only [body, hgroup, List.append_assoc] at h
    by_contra hc
    rw [Bool.not_eq_false] at hc
    obtain ⟨-, hrest⟩ := ImportKind.eq_of_keyword g.name.isQualifiedPart_text (by simp) h hc
    obtain rfl := (List.cons.inj hrest).1
    cases hc
  | none =>
    obtain ⟨item, more, hitems⟩ := List.exists_cons_of_ne_nil s.nonempty
    have hitem : item.text = item.plain := by
      rw [ImportItem.text, s.unmarked hgroup item (by simp [hitems])]
      rfl
    rw [body, hgroup, listed, hitems, List.map_cons, Text.join_cons, hitem, ImportItem.plain,
      List.append_assoc] at h
    refine item.not_blank_behind_keyword (fun d hd => ?_) h
    rw [List.head?_append, Option.mem_def, Option.or_eq_some_iff] at hd
    rcases hd with hd | ⟨-, hd⟩
    · simp [item.head?_aliasPart d hd]
    · split at hd
      · cases hd
      · simp [← Option.some.inj hd]

/-- The keyword and the rest of a statement are told apart. -/
theorem readBody_body :
    Import.readBody (ImportKeyword.lead s.keyword ++ s.body) = ⟨s.kind, s.body⟩ := by
  cases hkeyword : s.keyword with
  | none =>
    rw [ImportKeyword.lead, List.nil_append, kind, hkeyword, Import.readBody]
    split
    · rename_i word c rest h
      rw [s.not_blank_behind_keyword h, s.trimmed_body.trim_eq]
      rfl
    · rw [s.trimmed_body.trim_eq]
      rfl
  | some keyword =>
    have hword := keyword.anyKeyword?_word ([' '] ++ s.body)
    rw [← List.append_assoc] at hword
    have hbody : (Text.isBlank ' ' && !s.body.isEmpty) = true := by
      simp [s.trimmed_body.ne_nil, show Text.isBlank ' ' = true from rfl]
    simp only [Import.readBody, ImportKeyword.lead, hword, List.singleton_append, hbody, if_true,
      keyword.ofKeyword_word, s.trimmed_body.trim_eq, kind, hkeyword]
    rfl

/-- A statement is read up to its semicolon. -/
theorem readStatement?_text : Import.readStatement? s.text = some ⟨s.kind, s.body⟩ := by
  set rest := ImportKeyword.lead s.keyword ++ s.body with hrest
  -- Rewriting would unfold the literal in search of one more append.
  have happend (a b c d : Text) : a ++ b ++ c ++ d = a ++ (b ++ c ++ d) := by
    simp only [List.append_assoc]
  have htext : s.text = "use ".toList ++ (rest ++ [';']) := happend _ _ _ _
  have htrimmed : Text.Trimmed rest := ImportKeyword.trimmed_lead s.keyword s.trimmed_body
  have hblanks := Code.blanks?_trimmed htrimmed [';']
  have hcut : Text.cut (· == ';') (rest ++ [';']) = (rest, [';']) := by
    refine Text.cut_append (fun hmem => ?_) []
    cases s.isBodyPart_front _ hmem
  have hword : Code.keyword? "use".toList (Text.trimStart ("use ".toList ++ (rest ++ [';']))) =
      some ("use".toList, ' ' :: (rest ++ [';'])) := rfl
  rw [Import.readStatement?, htext]
  simp only [hword, hblanks, hcut, Option.bind_eq_bind, Option.bind_some]
  rw [hrest, s.readBody_body]

/-- The group in front of all items, without a backslash at its end. -/
def groupText : Text := (s.group.map fun g => g.name.text).getD []

theorem map_trim_listed :
    (Text.splitAtChar ',' s.listed).map Text.trim = s.items.map ImportItem.text := by
  refine Text.map_trim_splitAtChar_join (by decide) (by simp [s.nonempty]) fun t ht => ?_
  obtain ⟨item, -, rfl⟩ := List.mem_map.mp ht
  refine ⟨fun hmem => ?_, item.trimmed_text.trim_eq⟩
  cases item.isItemPart_text _ hmem

/-- A trailing comma leaves an empty text behind the items. -/
theorem map_trim_listed_comma (comma : Bool) : ∃ empty, (∀ t ∈ empty, t = []) ∧
    (Text.splitAtChar ',' (s.listed ++ if comma then [','] else [])).map Text.trim =
      s.items.map ImportItem.text ++ empty := by
  cases comma with
  | false => exact ⟨[], by simp, by simp [s.map_trim_listed]⟩
  | true =>
    refine ⟨[[]], by simp, ?_⟩
    rw [if_pos rfl, Text.splitAtChar_append_sep, List.map_append, s.map_trim_listed]
    rfl

/-- The group and the items come apart again. -/
theorem splitGroup_body : ∃ empty, (∀ t ∈ empty, t = []) ∧
    Import.splitGroup s.body = .ok (s.groupText, s.items.map ImportItem.text ++ empty) := by
  cases hgroup : s.group with
  | none =>
    have hopen : '\x7b' ∉ s.listed := fun hmem => by
      cases s.isListPart_listed _ hmem
    refine ⟨[], by simp, ?_⟩
    simp [Import.splitGroup, body, groupText, hgroup, Text.cut_of_not_mem hopen, s.map_trim_listed]
  | some g =>
    have hopen : '\x7b' ∉ g.name.text ++ ['\\'] := fun hmem => by
      rcases List.mem_append.mp hmem with hmem | hmem
      · cases g.name.isQualifiedPart_text _ hmem
      · simp at hmem
    set inner := s.listed ++ (if g.trailingComma then [','] else []) with hinner
    have hbody : s.body = (g.name.text ++ ['\\']) ++ '\x7b' :: (inner ++ ['\x7d']) := by
      simp [body, hgroup, hinner]
    have htrim : Text.trim (g.name.text ++ ['\\']) = g.name.text ++ ['\\'] := by
      have hslash : Text.Trimmed ['\\'] := .singleton rfl
      have haround := g.name.trimmed_text.around hslash []
      rw [List.append_nil] at haround
      exact haround.trim_eq
    have hclose := Checked.beforeLast?_append (c := '\x7d') inner (t := []) (by simp)
    obtain ⟨empty, hempty, hparts⟩ := s.map_trim_listed_comma g.trailingComma
    rw [← hinner] at hparts
    refine ⟨empty, hempty, ?_⟩
    rw [hbody, Import.splitGroup, Text.cut_append hopen]
    simp only [htrim, QualifiedName.dropEndWhile_text, hclose, hparts, groupText, hgroup]
    rfl

/-- The import of an item is as it was written. -/
theorem ofItem_read (line : Nat) (item : ImportItem) :
    Import.ofItem line s.kind s.groupText item.read = s.importOf line item := by
  have hkind : item.read.kind.getD s.kind = (s.importOf line item).kind := by
    cases hkeyword : item.keyword <;> simp [ImportItem.read, importOf, kind, hkeyword]
  have hname : (Text.trim (if s.groupText.isEmpty then item.read.name.dropWhile (· == '\\')
      else s.groupText ++ '\\' :: item.read.name.dropWhile (· == '\\'))).dropWhile (· == '\\') =
        (s.nameOf item).path := by
    have hitem : item.read.name.dropWhile (· == '\\') = item.name.path := item.name.dropWhile_text
    rw [hitem]
    cases hgroup : s.group with
    | none =>
      rw [groupText, nameOf, hgroup]
      change (Text.trim item.name.path).dropWhile _ = _
      rw [item.name.trimmed_path.trim_eq, item.name.dropWhile_path]
    | some g =>
      have hne : g.name.text.isEmpty = false := by simp [g.name.trimmed_text.ne_nil]
      have htext : s.groupText = g.name.text := by simp [groupText, hgroup]
      rw [htext, hne, if_neg (by simp), ← QualifiedName.text_below,
        (g.name.below item.name).trimmed_text.trim_eq, QualifiedName.dropWhile_text, nameOf, hgroup]
  simp only [Import.ofItem, hkind, hname]
  rfl

/-- A statement gives one import for each of its items. -/
theorem ofStatement_body (line : Nat) :
    Import.ofStatement line ⟨s.kind, s.body⟩ = .ok (s.imports line) := by
  obtain ⟨empty, hempty, hsplit⟩ := s.splitGroup_body
  have hitems : (s.items.map ImportItem.text).filterMap Import.readItem? =
      s.items.map ImportItem.read := by
    rw [List.filterMap_map, ← List.filterMap_eq_map]
    exact congrArg (List.filterMap · s.items) (funext fun item => item.readItem?_text)
  have hnone : empty.filterMap Import.readItem? = [] := by
    rw [List.filterMap_eq_nil_iff]
    intro t ht
    rw [hempty t ht]
    rfl
  have himports : (s.items.map ImportItem.read).map (Import.ofItem line s.kind s.groupText) =
      s.imports line := by
    rw [List.map_map]
    exact List.map_congr_left fun item _ => s.ofItem_read line item
  rw [Import.ofStatement, hsplit]
  change Except.ok _ = _
  rw [List.filterMap_append, hitems, hnone, List.append_nil, himports]

/-- How the import of an item is named: in full below the group, and by its namespace and its
short name together; code refers to it by the alias or by the last segment. -/
structure Names (s : ImportStatement) (item : ImportItem) (i : Import) : Prop where
  fullName_eq : i.fullName =
    (s.group.map fun g => g.name.path ++ ['\\']).getD [] ++ item.name.path
  shortName_eq : i.shortName = item.name.last
  parts_eq : (if i.namespaceName = [] then i.shortName
    else i.namespaceName ++ '\\' :: i.shortName) = i.fullName
  effectiveName_eq : i.effectiveName = item.asName.getD item.name.last

theorem names_importOf (line : Nat) (item : ImportItem) :
    s.Names item (s.importOf line item) := by
  obtain ⟨hshort, hparts⟩ := Import.shortName_eq (i := s.importOf line item) rfl
  have hlast : (s.nameOf item).last = item.name.last := by
    unfold nameOf
    cases s.group with
    | none => rfl
    | some g => exact QualifiedName.last_below g.name item.name
  rw [hlast] at hshort
  refine ⟨?_, hshort, hparts, ?_⟩
  · change (s.nameOf item).path = _
    unfold nameOf
    cases s.group with
    | none => rfl
    | some g => simp [QualifiedName.path_below]
  · change item.asName.getD _ = _
    rw [hshort]

/-- The imports of a statement are named as its items, one after another. -/
theorem names_imports (line : Nat) : List.Forall₂ s.Names s.items (s.imports line) := by
  rw [imports, List.forall₂_map_right_iff, List.forall₂_same]
  exact fun item _ => s.names_importOf line item

end ImportStatement

end PhpLint
