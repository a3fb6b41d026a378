import Mathlib.Data.Bool.AllAny
import PhpLint.Proofs.Code.Words
import PhpLint.Proofs.Declaration.ClassNames
import PhpLint.Proofs.Declaration.ModifierWords

/-!
Class headers as they are written, up to the opening brace. A clause that is written is read
back, whatever stands behind the brace. A clause that is not written is looked for behind the
brace as well, so that the text there decides what is recorded.
-/

namespace PhpLint

/-- The word that may stand in front of a class. -/
inductive ClassMark where
  | abstract
  | final
  | readonly
  deriving DecidableEq, Repr

def ClassMark.name : ClassMark → String
  | .abstract => "abstract"
  | .final => "final"
  | .readonly => "readonly"

/-- The head of a class declaration. -/
structure ClassHeader where
  mark : Option ClassMark
  name : Text
  parent : Option QualifiedName
  interfaces : List QualifiedName
  named : Code.isIdentifier name = true

theorem QualifiedName.words_text (n : QualifiedName) : Code.words n.text = n.segments := by
  have hpath : Code.words n.path = n.segments := by
    have hself : ∀ segment ∈ n.segments, Code.words segment = [segment] := by
      intro segment hsegment
      have hnamed := n.named segment hsegment
      exact Code.words_of_isIdentPart (Code.trimmed_of_isIdentifier hnamed).ne_nil
        (Code.isIdentPart_of_isIdentifier hnamed)
    rw [path, Code.words_join (by simp) (List.all_iff_forall_prop.mp (by decide)),
      List.flatMap_congr hself]
    simp
  unfold text
  split
  · rw [Code.words_cons (by decide), hpath]
  · exact hpath

namespace ClassDecl

/-- Behind one blank there is one place for a clause. -/
theorem clauseStarts_trimmed {s : Text} (hs : Text.Trimmed s) (t : Text) :
    Code.clauseStarts (' ' :: (s ++ t)) = [s ++ t] := by
  obtain ⟨c, hc, hblank⟩ := hs.starts
  obtain ⟨rest, rfl⟩ := List.head?_eq_some_iff.mp (Option.mem_def.mp hc)
  have hspace : Text.isBlank ' ' = true := rfl
  simp [Code.clauseStarts, hblank, hspace]

section Clause

variable {keyword : Text} (hne : keyword ≠ [])
  (hletters : ∀ k ∈ keyword, Text.isIdentPart k = true)
include hne hletters

/-- A clause needs white space behind its keyword. -/
theorem clauseAt?_eq_none {s : Text} (hs : ∀ w ∈ Code.words s, w.map Code.foldLetter ≠ keyword)
    {c : Char} (hc : Text.isWord c = false) (r : Text → Option Text) (t : Text) :
    clauseAt? keyword r (s ++ c :: t) = none := by
  rw [clauseAt?, Option.bind_eq_none_iff]
  rintro ⟨w, rest⟩ hkeyword
  obtain ⟨d, more, rfl, hd⟩ := Code.isWord_of_keyword? hne hletters hc hs hkeyword
  simp [Code.clauseStarts, Text.isBlank_of_isWord hd]

/-- A clause is not found where the keyword is no word. -/
theorem findAtWordStart_clauseAt? {s : Text}
    (hs : ∀ w ∈ Code.words s, w.map Code.foldLetter ≠ keyword) {c : Char}
    (hc : Text.isWord c = false) (r : Text → Option Text) (t : Text) :
    Code.findAtWordStart (clauseAt? keyword r) none (s ++ c :: t) =
      Code.findAtWordStart (clauseAt? keyword r) none t := by
  have hnil : ∀ w ∈ Code.words [], w.map Code.foldLetter ≠ keyword := by simp [Code.words,
    Code.wordsFrom]
  refine Code.findAtWordStart_append hc (clauseAt?_eq_none hne hletters hnil hc r t) ?_
  rintro u v rfl - hu
  refine clauseAt?_eq_none hne hletters (fun w hw => hs w ?_) hc r t
  rw [Code.words_append_of_end hu]
  exact List.mem_append_right _ hw

/-- No names are read where the keyword is no word. -/
theorem namesOf_findAtWordStart_clauseAt? {s : Text}
    (hs : ∀ w ∈ Code.words s, w.map Code.foldLetter ≠ keyword) {r : Text → Option Text}
    (hr : Clause r) : namesOf (Code.findAtWordStart (clauseAt? keyword r) none s) = [] := by
  have hblank : ' ' ∉ keyword := fun hmem => absurd (hletters ' ' hmem) (by decide)
  rw [← namesOf_blank hblank hne hr, findAtWordStart_clauseAt? hne hletters hs (by decide)]
  rfl

/-- A clause is read where its keyword and its names stand, with blanks in front of them. -/
theorem findAtWordStart_clause (hfold : keyword.map Code.foldLetter = keyword) {s : Text}
    (hs : ∀ w ∈ Code.words s, w.map Code.foldLetter ≠ keyword) {r : Text → Option Text}
    {names t found : Text} (htrimmed : Text.Trimmed names) (hread : r (names ++ t) = some found) :
    Code.findAtWordStart (clauseAt? keyword r) none
        (s ++ ' ' :: (keyword ++ ' ' :: (names ++ t))) = some found := by
  have hkeyword := Code.keyword?_append keyword (' ' :: (names ++ t))
  rw [hfold] at hkeyword
  have hclause : clauseAt? keyword r (keyword ++ ' ' :: (names ++ t)) = some found := by
    rw [clauseAt?, hkeyword, Option.bind_some, clauseStarts_trimmed htrimmed, List.findSome?_cons,
      hread]
  rw [findAtWordStart_clauseAt? hne hletters hs (by decide),
    Code.findAtWordStart_of_eq_some (by simp) hclause]

end Clause

/-- Nothing is found in front of a character that belongs to no word, where the keyword is no
word. -/
theorem extends?_append {s : Text}
    (hs : ∀ w ∈ Code.words s, w.map Code.foldLetter ≠ "extends".toList) {c : Char}
    (hc : Text.isWord c = false) (t : Text) : extends? (s ++ c :: t) = extends? t :=
  findAtWordStart_clauseAt? (by simp) (List.all_eq_true.mp rfl) hs hc _ t

theorem implements?_append {s : Text}
    (hs : ∀ w ∈ Code.words s, w.map Code.foldLetter ≠ "implements".toList) {c : Char}
    (hc : Text.isWord c = false) (t : Text) : implements? (s ++ c :: t) = implements? t :=
  findAtWordStart_clauseAt? (by simp) (List.all_eq_true.mp rfl) hs hc _ t

theorem parentsEnd_cons {c : Char} (hblank : Text.isBlank c = false) (hbrace : c ≠ '\x7b')
    (previous : Char) (s : Text) :
    parentsEnd previous (c :: s) =
      (!Text.isWord previous && match Code.keyword? "implements".toList (c :: s) with
        | some (_, rest) => Code.atWordEnd rest
        | none => false) := by
  have hblanks : (Text.isBlank ((c :: s).headD c) || !Text.isWord previous) =
      !Text.isWord previous := by
    simp [hblank]
  unfold parentsEnd
  rw [Text.trimStart_cons_of_not_blank hblank]
  split
  · rename_i hnil
    cases hnil
  · rename_i heq
    exact absurd (List.cons.inj heq).1 hbrace
  · rename_i heq
    obtain ⟨rfl, rfl⟩ := List.cons.inj heq
    exact congrArg (· && _) hblanks

section Parent

variable {n : QualifiedName}
  (hn : ∀ segment ∈ n.segments, Text.asciiLower segment ≠ "implements".toList)
include hn

/-- The parents do not end within a name that has no segment of that kind. -/
theorem parentsEnd_within {u v : Text} {previous c : Char} (h : n.text = u ++ previous :: c :: v)
    (t : Text) : parentsEnd previous (c :: (v ++ ' ' :: t)) = false := by
  have hpart := n.isQualifiedPart_text c (by simp [h])
  have hbrace : c ≠ '\x7b' := by
    rintro rfl
    cases hpart
  rw [parentsEnd_cons (Code.isBlank_of_isQualifiedPart hpart) hbrace]
  cases hprevious : Text.isWord previous with
  | true => rfl
  | false =>
    have hwords : ∀ w ∈ Code.words (c :: v), w.map Code.foldLetter ≠ "implements".toList := by
      intro w hw
      have hsegment : w ∈ n.segments := by
        rw [← n.words_text, h, Code.words_append hprevious]
        exact List.mem_append_right _ hw
      have hparts : ∀ d ∈ w, Code.isQualifiedPart d = true := fun d hd => by
        simp [Code.isQualifiedPart, Code.isIdentPart_of_isIdentifier (n.named w hsegment) d hd]
      rw [Code.map_foldLetter_of_isQualifiedPart hparts]
      exact hn w hsegment
    cases hkeyword : Code.keyword? "implements".toList (c :: (v ++ ' ' :: t)) with
    | none => rfl
    | some found =>
      obtain ⟨w, rest⟩ := found
      obtain ⟨d, more, rfl, hd⟩ := Code.isWord_of_keyword? (s := c :: v) (c := ' ') (by simp)
        (List.all_eq_true.mp rfl) (by decide) hwords hkeyword
      simp [Code.atWordEnd, hd]

/-- The parents are read up to a text at which they end. -/
theorem readParents?_text {t : Text} (hend : ∀ previous, parentsEnd previous (' ' :: t) = true) :
    readParents? (n.text ++ ' ' :: t) = some n.text := by
  -- Along the name, `u` and the character behind it are what has been passed.
  have hwalk (u v : Text) (previous : Char) (h : n.text = u ++ previous :: v) :
      parentsAfter previous (v ++ ' ' :: t) = some v := by
    induction v generalizing u previous with
    | nil => rw [List.nil_append, parentsAfter, if_pos (hend previous)]
    | cons c v ih =>
      have hline : c ≠ '\n' := by
        rintro rfl
        cases n.isQualifiedPart_text '\n' (by simp [h])
      have hmore := ih (u ++ [previous]) c (by simp [h])
      rw [List.cons_append, parentsAfter, parentsEnd_within hn h, if_neg (by simp),
        if_neg hline, hmore, Option.map_some]
  obtain ⟨c, v, htext⟩ := List.exists_cons_of_ne_nil n.trimmed_text.ne_nil
  have hline : c ≠ '\n' := by
    rintro rfl
    cases n.isQualifiedPart_text '\n' (by simp [htext])
  rw [htext, List.cons_append, readParents?, if_neg hline, hwalk [] v c htext, Option.map_some]

end Parent

end ClassDecl

namespace ClassHeader

variable (h : ClassHeader)

/-- What stands in front of the name. -/
def lead : Text :=
  match h.mark with
  | some m => m.name.toList ++ ' ' :: "class ".toList
  | none => "class ".toList

def parentClause : Text :=
  match h.parent with
  | some p => " extends ".toList ++ p.text
  | none => []

def interfaceClause : Text :=
  if h.interfaces = [] then []
  else " implements ".toList ++ Text.join [',', ' '] (h.interfaces.map QualifiedName.text)

/-- What stands behind the name. -/
def tail : Text := h.parentClause ++ h.interfaceClause ++ [' ', '\x7b']

/-- The header as written, with the opening brace. -/
def text : Text := h.lead ++ (h.name ++ h.tail)

/-- No part of a written name is the keyword of a clause. -/
def Unreserved : Prop :=
  ∀ n ∈ h.parent.toList ++ h.interfaces, ∀ segment ∈ n.segments,
    Text.asciiLower segment ∉ ["extends", "implements"].map String.toList

instance : Decidable h.Unreserved := inferInstanceAs (Decidable (∀ n ∈ _, _))

/-- The names of the clause `extends`: as it is written, or as it is found behind the brace. -/
def parents (behind : Text) : List Text :=
  match h.parent with
  | some p => [p.text]
  | none => ClassDecl.namesOf (ClassDecl.extends? behind)

/-- The names of the clause `implements`, likewise. -/
def implemented (behind : Text) : List Text :=
  if h.interfaces = [] then ClassDecl.namesOf (ClassDecl.implements? behind)
  else h.interfaces.map QualifiedName.text

/-- What is recorded of the class, with the given text behind the brace. -/
def decl (line : Nat) (space : Option Text) (behind : Text) : ClassDecl where
  name := h.name
  kind := .ordinary
  startLine := line
  modifier :=
    match h.mark with
    | some .abstract => some .abstract
    | some .final => some .final
    | _ => none
  readonly := h.mark == some .readonly
  namespaceName := space
  parent := (h.parents behind).head?
  interfaces := ((h.parents behind).tail ++ h.implemented behind).eraseDups

theorem tail_cons : ∃ rest, h.tail = ' ' :: rest := by
  unfold tail parentClause interfaceClause
  cases h.parent with
  | some p => exact ⟨_, rfl⟩
  | none =>
    by_cases hnone : h.interfaces = []
    · exact ⟨['\x7b'], by simp [hnone]⟩
    · rw [if_neg hnone]
      exact ⟨_, rfl⟩

/-- The modifiers, the keyword and the name are read back. -/
theorem readHead?_text (behind : Text) :
    ClassDecl.readHead? (h.text ++ behind) =
      some ⟨h.mark.toList.map fun m => ⟨m.name.toList, false⟩, "class".toList, h.name,
        h.tail ++ behind⟩ := by
  obtain ⟨rest, htail⟩ := h.tail_cons
  have hname : ClassDecl.readKeyword? (h.mark.toList.map fun m => ⟨m.name.toList, false⟩)
      ("class ".toList ++ (h.name ++ (h.tail ++ behind))) =
        some ⟨h.mark.toList.map fun m => ⟨m.name.toList, false⟩, "class".toList, h.name,
          h.tail ++ behind⟩ := by
    have hkeyword : Code.anyKeyword? ClassKind.keywords
        ("class ".toList ++ (h.name ++ (h.tail ++ behind))) =
          some ("class".toList, ' ' :: (h.name ++ (h.tail ++ behind))) := rfl
    have hread : Code.name? (h.name ++ (h.tail ++ behind)) = some (h.name, h.tail ++ behind) := by
      refine Code.name?_append h.named fun c hc => ?_
      rw [htail] at hc
      obtain rfl := Option.some.inj hc
      rfl
    rw [ClassDecl.readKeyword?, hkeyword, Option.bind_some,
      Code.blanks?_trimmed (Code.trimmed_of_isIdentifier h.named), Option.bind_some,
      ClassDecl.readName?, hread, Option.bind_some]
  have hnone (s : Text) : Modifier.readAll ClassDecl.modifiers ("class ".toList ++ s) =
      ([], "class ".toList ++ s) := Modifier.readAll_of_anyKeyword? rfl
  have hstart (s : Text) : Text.trimStart ("class ".toList ++ s) = "class ".toList ++ s := rfl
  rw [ClassDecl.readHead?_eq, text, List.append_assoc, List.append_assoc, lead]
  cases hmark : h.mark with
  | none =>
    rw [hmark] at hname
    simp only [hstart, hnone]
    exact hname
  | some m =>
    rw [hmark] at hname
    have hword : m.name.toList.map Code.foldLetter ∈ ClassDecl.modifiers.words := by
      cases m <;> decide
    have hplain : ∀ c ∈ m.name.toList, Text.isBlank c = false ∧ c ≠ '(' := by
      cases m <;> exact List.all_iff_forall_prop.mp (by decide)
    have hmodifier (s : Text) : Text.trimStart (m.name.toList ++ s) = m.name.toList ++ s := by
      cases m <;> rfl
    rw [List.append_assoc, hmodifier, List.cons_append,
      Modifier.readAll_word (by decide) hplain hword, hstart, hnone]
    exact hname

variable {h}

/-- The words of a clause are its keyword and the segments of its names. -/
theorem ne_of_mem_words (hfree : h.Unreserved) {keyword : Text}
    (hkeyword : keyword ∈ ["extends", "implements"].map String.toList) {names : List QualifiedName}
    (hnames : ∀ n ∈ names, n ∈ h.parent.toList ++ h.interfaces) :
    ∀ w ∈ names.flatMap QualifiedName.segments, w.map Code.foldLetter ≠ keyword := by
  intro w hw hfold
  obtain ⟨n, hn, hw⟩ := List.mem_flatMap.mp hw
  have hparts : ∀ d ∈ w, Code.isQualifiedPart d = true := fun d hd => by
    simp [Code.isQualifiedPart, Code.isIdentPart_of_isIdentifier (n.named w hw) d hd]
  rw [Code.map_foldLetter_of_isQualifiedPart hparts] at hfold
  exact hfree n (hnames n hn) w hw (hfold ▸ hkeyword)

/-- The words of a clause with a blank in front and another one behind it. -/
theorem words_clause {keyword : Text} (hne : keyword ≠ [])
    (hletters : ∀ k ∈ keyword, Text.isIdentPart k = true) (names : List QualifiedName) :
    Code.words (' ' :: (keyword ++ ' ' ::
        (Text.join [',', ' '] (names.map QualifiedName.text) ++ [' ']))) =
      keyword :: names.flatMap QualifiedName.segments := by
  have hblank : Text.isWord ' ' = false := by decide
  have hlist : Code.words (Text.join [',', ' '] (names.map QualifiedName.text)) =
      names.flatMap QualifiedName.segments := by
    rw [Code.words_join (by simp) (List.all_iff_forall_prop.mp (by decide)), List.flatMap_map]
    exact List.flatMap_congr fun n _ => n.words_text
  have hnil : Code.words [] = [] := rfl
  rw [Code.words_cons hblank, Code.words_append hblank, Code.words_of_isIdentPart hne hletters,
    Code.words_append hblank, hlist, hnil, List.append_nil, List.singleton_append]

theorem words_parentClause (hfree : h.Unreserved) :
    ∀ w ∈ Code.words (h.parentClause ++ [' ']), w.map Code.foldLetter ≠ "implements".toList := by
  cases hparent : h.parent with
  | none =>
    have hnil : Code.words [' '] = [] := rfl
    simp [parentClause, hparent, hnil]
  | some p =>
    have hclause : h.parentClause ++ [' '] = ' ' :: ("extends".toList ++ ' ' ::
        (Text.join [',', ' '] ([p].map QualifiedName.text) ++ [' '])) := by
      simp [parentClause, hparent, Text.join]
    rw [hclause, words_clause (by simp) (List.all_eq_true.mp rfl), List.forall_mem_cons]
    exact ⟨by decide, ne_of_mem_words hfree (by simp) (by simp [hparent])⟩

theorem words_interfaceClause (hfree : h.Unreserved) :
    ∀ w ∈ Code.words (h.interfaceClause ++ [' ']), w.map Code.foldLetter ≠ "extends".toList := by
  by_cases hnone : h.interfaces = []
  · have hnil : Code.words [' '] = [] := rfl
    simp [interfaceClause, hnone, hnil]
  · have hclause : h.interfaceClause ++ [' '] = ' ' :: ("implements".toList ++ ' ' ::
        (Text.join [',', ' '] (h.interfaces.map QualifiedName.text) ++ [' '])) := by
      simp [interfaceClause, hnone]
    rw [hclause, words_clause (by simp) (List.all_eq_true.mp rfl), List.forall_mem_cons]
    exact ⟨by decide, ne_of_mem_words hfree (by simp) fun n hn => List.mem_append_right _ hn⟩

/-- The parent is read back, or it is looked for behind the brace. -/
theorem namesOf_extends? (hfree : h.Unreserved) (behind : Text) :
    ClassDecl.namesOf (ClassDecl.extends? (h.tail ++ behind)) = h.parents behind := by
  cases hparent : h.parent with
  | none =>
    have htail : h.tail ++ behind = (h.interfaceClause ++ [' ']) ++ '\x7b' :: behind := by
      simp [tail, parentClause, hparent]
    rw [htail, ClassDecl.extends?_append (words_interfaceClause hfree) (by decide), parents,
      hparent]
  | some p =>
    obtain ⟨t, htail, hend⟩ : ∃ t, h.tail ++ behind =
        [] ++ ' ' :: ("extends".toList ++ ' ' :: (p.text ++ ' ' :: t)) ∧
          ∀ previous, ClassDecl.parentsEnd previous (' ' :: t) = true := by
      unfold tail parentClause interfaceClause
      rw [hparent]
      by_cases hnone : h.interfaces = []
      · exact ⟨'\x7b' :: behind, by simp [hnone], fun _ => rfl⟩
      · rw [if_neg hnone]
        exact ⟨_, by simp; rfl, fun _ => rfl⟩
    have hn : ∀ segment ∈ p.segments, Text.asciiLower segment ≠ "implements".toList := by
      intro segment hsegment heq
      exact hfree p (by simp [hparent]) segment hsegment (by simp [heq])
    have hnil : ∀ w ∈ Code.words [], w.map Code.foldLetter ≠ "extends".toList := by
      simp [Code.words, Code.wordsFrom]
    have hread : ClassDecl.extends? (h.tail ++ behind) = some p.text := by
      rw [htail]
      exact ClassDecl.findAtWordStart_clause (by simp) (List.all_eq_true.mp rfl) rfl hnil
        p.trimmed_text (ClassDecl.readParents?_text hn hend)
    have hnames : ClassDecl.qualifiedNames p.text = [p.text] :=
      ClassDecl.qualifiedNames_join (List.cons_ne_nil p [])
    rw [hread, parents, hparent, ClassDecl.namesOf, Option.map_some, hnames, Option.getD_some]

/-- The interfaces are read back, or they are looked for behind the brace. -/
theorem namesOf_implements? (hfree : h.Unreserved) (behind : Text) :
    ClassDecl.namesOf (ClassDecl.implements? (h.tail ++ behind)) = h.implemented behind := by
  have hparent := words_parentClause hfree
  rw [implemented]
  split
  · rename_i hnone
    have htail : h.tail ++ behind = (h.parentClause ++ [' ']) ++ '\x7b' :: behind := by
      simp [tail, interfaceClause, hnone]
    rw [htail, ClassDecl.implements?_append hparent (by decide)]
  · rename_i hsome
    set list := Text.join [',', ' '] (h.interfaces.map QualifiedName.text) with hlist
    have htail : h.tail ++ behind = h.parentClause ++ ' ' :: ("implements".toList ++ ' ' ::
        (list ++ ' ' :: '\x7b' :: behind)) := by
      simp [tail, interfaceClause, hsome, hlist]
    have htrimmed : Text.Trimmed list := by
      refine .join (by simpa using hsome) fun part hpart => ?_
      obtain ⟨n, -, rfl⟩ := List.mem_map.mp hpart
      exact n.trimmed_text
    have hopen : '\x7b' ∉ list ++ [' '] := by
      intro hmem
      rcases List.mem_append.mp hmem with hmem | hmem
      · rcases Text.mem_join hmem with hsep | ⟨part, hpart, hmem⟩
        · simp at hsep
        · obtain ⟨n, -, rfl⟩ := List.mem_map.mp hpart
          cases n.isQualifiedPart_text _ hmem
      · simp at hmem
    have hread : ClassDecl.readInterfaces? (list ++ ' ' :: '\x7b' :: behind) =
        some (list ++ [' ']) := by
      rw [List.append_cons, ClassDecl.readInterfaces?, Text.cut_append hopen]
      obtain ⟨c, rest, hcons⟩ := List.exists_cons_of_ne_nil htrimmed.ne_nil
      simp [hcons]
    have hwords : ∀ w ∈ Code.words h.parentClause,
        w.map Code.foldLetter ≠ "implements".toList := by
      have hnil : Code.words [] = [] := rfl
      rwa [Code.words_append (by decide), hnil, List.append_nil] at hparent
    have hfound : ClassDecl.implements? (h.tail ++ behind) = some (list ++ [' ']) := by
      rw [htail]
      exact ClassDecl.findAtWordStart_clause (by simp) (List.all_eq_true.mp rfl) rfl hwords
        htrimmed hread
    rw [hfound, ClassDecl.namesOf, Option.map_some, ClassDecl.qualifiedNames_blank,
      ClassDecl.qualifiedNames_join hsome, Option.getD_some]

/-- A class is read as its header says, and as the text behind the brace says where the header
says nothing. -/
theorem read?_text (hfree : h.Unreserved) (line : Nat) (space : Option Text) (behind : Text) :
    ClassDecl.read? line space (h.text ++ behind) = some (h.decl line space behind) := by
  have hkind : ClassKind.ofKeyword? "class".toList = some .ordinary := by decide
  have hparents := namesOf_extends? hfree behind
  have hinterfaces := namesOf_implements? hfree behind
  unfold ClassDecl.namesOf at hparents hinterfaces
  rw [ClassDecl.read?, h.readHead?_text]
  simp only [Option.bind_eq_bind, Option.bind_some, hkind, hparents, hinterfaces]
  have hmark (c : ClassDecl) (hnone : c.parent = none) :
      ((h.mark.toList.map fun m => (⟨m.name.toList, false⟩ : Modifier)).foldl
        ClassDecl.applyModifier c).parent = none := by
    rcases h.mark with _ | _ | _ | _ <;> exact hnone
  rw [ClassDecl.addParents_eq (hmark _ rfl), ClassDecl.foldl_addInterface]
  simp only [ClassHeader.decl]
  rcases h.mark with _ | _ | _ | _
  all_goals
    simp only [← ClassDecl.foldl_addName, List.foldl_append]
    rfl

theorem eraseDups_eq_nil_iff {names : List Text} : names.eraseDups = [] ↔ names = [] := by
  simp only [List.eq_nil_iff_forall_not_mem, List.mem_eraseDups]

/-- The clauses are recorded as they are written exactly if nothing is found behind the brace
for one that is not written. -/
theorem decl_as_written_iff (line : Nat) (space : Option Text) (behind : Text) :
    ((h.decl line space behind).parent = h.parent.map QualifiedName.text ∧
      (h.decl line space behind).interfaces =
        (h.interfaces.map QualifiedName.text).eraseDups) ↔
      (h.parent = none → ClassDecl.namesOf (ClassDecl.extends? behind) = []) ∧
        (h.interfaces = [] → ClassDecl.namesOf (ClassDecl.implements? behind) = []) := by
  have hinterfaces : (h.implemented behind).eraseDups =
      (h.interfaces.map QualifiedName.text).eraseDups ↔
        (h.interfaces = [] → ClassDecl.namesOf (ClassDecl.implements? behind) = []) := by
    unfold implemented
    split
    · rename_i hnone
      simp only [hnone, List.map_nil, List.eraseDups_nil, eraseDups_eq_nil_iff, forall_const]
    · rename_i hsome
      simp [hsome]
  simp only [decl, parents]
  cases h.parent with
  | some p =>
    simp only [List.head?_cons, List.tail_cons, List.nil_append, Option.map_some, true_and,
      reduceCtorEq, false_imp_iff, hinterfaces]
  | none =>
    cases ClassDecl.namesOf (ClassDecl.extends? behind) with
    | nil => simp only [List.head?_nil, List.tail_nil, List.nil_append, Option.map_none, true_and,
        forall_const, hinterfaces]
    | cons parent more => simp

end ClassHeader

end PhpLint
