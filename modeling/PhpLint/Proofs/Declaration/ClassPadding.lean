import PhpLint.Proofs.Declaration.Padding

/-!
A class with a blank behind it. Its clauses are the hard part, since a clause is read
from the first of several places at which something can be read. Behind a keyword with
a text after it the places are the same; where only blanks follow, a clause may be found
with the blank and not without it, but it has no names.
-/

namespace PhpLint

namespace ClassDecl

/-- What is read of a head behind the blanks in front of the name. -/
def readName? (ms : List Modifier) (keyword s : Text) : Option Head :=
  (Code.name? s).bind fun x => some ⟨ms, keyword, x.1, x.2⟩

/-- What is read of a head behind the modifiers. -/
def readKeyword? (ms : List Modifier) (s : Text) : Option Head :=
  (Code.anyKeyword? ClassKind.keywords s).bind fun x => (Code.blanks? x.2).bind (readName? ms x.1)

theorem readHead?_eq (s : Text) :
    readHead? s =
      let (ms, s) := Modifier.readAll modifiers (Text.trimStart s)
      readKeyword? ms s :=
  rfl

def Head.blank (head : Head) : Head := { head with rest := head.rest ++ [' '] }

theorem leavesBlank_readName? (ms : List Modifier) (keyword : Text) :
    Code.LeavesBlank (readName? ms keyword) Head.blank :=
  .andThen (k := fun name rest => some (⟨ms, keyword, name, rest⟩ : Head)) .name fun _ _ => rfl

theorem leavesBlank_readKeyword? (ms : List Modifier) :
    Code.LeavesBlank (readKeyword? ms) Head.blank :=
  .andThen (k := fun keyword s => (Code.blanks? s).bind (readName? ms keyword))
    (.anyKeyword (by decide) (by decide)) fun keyword =>
      (leavesBlank_readName? ms keyword).blanks.blank

/-- The head of a class leaves a blank at the end over. -/
theorem readHead?_blank (s : Text) :
    readHead? (s ++ [' ']) = (readHead? s).map Head.blank := by
  rw [readHead?_eq, readHead?_eq, Text.trimStart_blank]
  rcases Modifier.readAll_pad modifiers (by decide) (Text.trimStart s) with
    hsame | ⟨hbare, m, hmore⟩
  · rw [hsame]
    exact (leavesBlank_readKeyword? _).pad _
  · have hnone := Modifier.anyKeyword?_of_bare hbare (show ∀ k ∈ ClassKind.keywords, _ by decide)
    rw [hmore]
    change readKeyword? _ [] = (readKeyword? _ (Modifier.readAll modifiers _).2).map Head.blank
    rw [(leavesBlank_readKeyword? _).nil, readKeyword?, hnone]
    rfl

theorem qualifiedNames_blank (s : Text) : qualifiedNames (s ++ [' ']) = qualifiedNames s := by
  obtain ⟨front, last, hs, hblank⟩ := Text.splitAtChar_blank (show ' ' ≠ ',' by decide) s
  simp [qualifiedNames, hs, hblank, Text.trim_blank]

theorem qualifiedNames_of_trimStart_eq_nil {s : Text} (h : Text.trimStart s = []) :
    qualifiedNames s = [] := by
  have hall : ∀ c ∈ s, Text.isBlank c = true := List.dropWhile_eq_nil_iff.mp h
  have hsplit : Text.splitAtChar ',' s = [s] := by
    clear h
    induction s with
    | nil => rfl
    | cons c s ih =>
      have hc : c ≠ ',' := by
        rintro rfl
        exact absurd (hall ',' List.mem_cons_self) (by decide)
      rw [Text.splitAtChar, if_neg hc, ih fun d hd => hall d (List.mem_cons_of_mem _ hd)]
  have hname : Code.isQualifiedName [] = false := rfl
  simp [qualifiedNames, hsplit, Text.trim_eq_nil_iff.mpr h, hname]

/-- The names of a clause, none if there is no clause. -/
def namesOf (clause : Option Text) : List Text := (clause.map qualifiedNames).getD []

/-- What a reader of clauses does with a blank: behind a text it changes no names, and
where there is nothing but blanks there are no names. -/
structure Clause (r : Text → Option Text) : Prop where
  same : ∀ s, s ≠ [] → (r (s ++ [' '])).map qualifiedNames = (r s).map qualifiedNames
  empty : ∀ s, Text.trimStart s = [] → namesOf (r s) = []

/-- The clause of a keyword at the start of a text. -/
def clauseAt? (keyword : Text) (r : Text → Option Text) (s : Text) : Option Text :=
  (Code.keyword? keyword s).bind fun x => (Code.clauseStarts x.2).findSome? r

theorem namesOf_findSome? {r : Text → Option Text} {texts : List Text}
    (h : ∀ t ∈ texts, namesOf (r t) = []) : namesOf (texts.findSome? r) = [] := by
  cases hfound : texts.findSome? r with
  | none => rfl
  | some names =>
    obtain ⟨t, hmem, ht⟩ := List.exists_of_findSome?_eq_some hfound
    rw [← ht]
    exact h t hmem

theorem namesOf_findAtWordStart {r : Text → Option Text} {s : Text}
    (h : ∀ t, t <:+ s → namesOf (r t) = []) (previous : Option Char) :
    namesOf (Code.findAtWordStart r previous s) = [] := by
  induction s generalizing previous with
  | nil => rfl
  | cons c s ih =>
    have hlater := ih fun t ht => h t (ht.trans (List.suffix_cons c s))
    rw [Code.findAtWordStart]
    cases previous.any Text.isWord with
    | true => exact hlater (some c)
    | false =>
      have hhere := h (c :: s) List.suffix_rfl
      cases hread : r (c :: s) with
      | none => simpa [hread] using hlater (some c)
      | some names => simpa [hread] using hhere

/-- Where only blanks follow the keyword, no names are found from there on. -/
theorem namesOf_clauseAt?_suffix {keyword : Text} {r : Text → Option Text} (hr : Clause r)
    {s w rest : Text} (hs : Code.keyword? keyword s = some (w, rest))
    (hrest : Text.trimStart rest = []) {t : Text} (ht : t <:+ s) :
    namesOf (clauseAt? keyword r t) = [] := by
  cases hread : Code.keyword? keyword t with
  | none => simp [clauseAt?, hread, namesOf]
  | some found =>
    obtain ⟨w', rest'⟩ := found
    have hlength := congrArg List.length (Code.map_foldLetter_of_keyword? hs)
    have hlength' := congrArg List.length (Code.map_foldLetter_of_keyword? hread)
    simp only [List.length_map, List.length_append] at hlength hlength'
    have hle := ht.length_le
    -- Both texts go on behind a keyword of one length, and the later one has less behind it.
    have hsuffix : rest' <:+ rest := by
      apply List.suffix_of_suffix_length_le ((Code.keyword?_suffix hread).trans ht)
        (Code.keyword?_suffix hs)
      omega
    have hblank : Text.trimStart rest' = [] := by
      rw [Text.trimStart, List.dropWhile_eq_nil_iff] at hrest ⊢
      exact fun c hc => hrest c (hsuffix.subset hc)
    rw [clauseAt?, hread]
    exact namesOf_findSome? fun t ht =>
      hr.empty t (Code.clauseStarts_of_trimStart_eq_nil hblank t ht)

theorem findSome?_blank {r : Text → Option Text} (hr : Clause r) {texts : List Text}
    (h : ∀ t ∈ texts, t ≠ []) :
    ((texts.map (· ++ [' '])).findSome? r).map qualifiedNames =
      (texts.findSome? r).map qualifiedNames := by
  induction texts with
  | nil => rfl
  | cons t texts ih =>
    simp only [List.mem_cons, forall_eq_or_imp] at h
    have hsame := hr.same t h.1
    rw [List.map_cons, List.findSome?_cons, List.findSome?_cons]
    cases hread : r t with
    | none =>
      rw [hread, Option.map_none, Option.map_eq_none_iff] at hsame
      rw [hsame]
      exact ih h.2
    | some names =>
      rw [hread] at hsame
      obtain ⟨names', hread', heq⟩ := Option.map_eq_some_iff.mp hsame
      rw [hread']
      simpa using heq

/-- At one place, either the names are the same, or there are none from there on. -/
theorem clauseAt?_blank {keyword : Text} (hkeyword : ' ' ∉ keyword) {r : Text → Option Text}
    (hr : Clause r) (s : Text) :
    (clauseAt? keyword r (s ++ [' '])).map qualifiedNames =
        (clauseAt? keyword r s).map qualifiedNames ∨
      (∀ t, t <:+ s → namesOf (clauseAt? keyword r t) = []) ∧
        ∀ t, t <:+ s ++ [' '] → namesOf (clauseAt? keyword r t) = [] := by
  have hblank := Code.keyword?_blank hkeyword s
  cases hread : Code.keyword? keyword s with
  | none =>
    rw [hread] at hblank
    exact .inl (by simp [clauseAt?, hread, hblank])
  | some found =>
    obtain ⟨w, rest⟩ := found
    rw [hread] at hblank
    by_cases hrest : Text.trimStart rest = []
    · refine .inr ⟨fun t => namesOf_clauseAt?_suffix hr hread hrest,
        fun t => namesOf_clauseAt?_suffix hr hblank ?_⟩
      rw [Text.trimStart_blank, hrest]
      rfl
    · left
      obtain ⟨hne, hstarts⟩ := Code.clauseStarts_blank hrest
      simpa [clauseAt?, hread, hblank, hstarts] using findSome?_blank hr hne

theorem namesOf_blank {keyword : Text} (hkeyword : ' ' ∉ keyword) (hne : keyword ≠ [])
    {r : Text → Option Text} (hr : Clause r) (previous : Option Char) (s : Text) :
    namesOf (Code.findAtWordStart (clauseAt? keyword r) previous (s ++ [' '])) =
      namesOf (Code.findAtWordStart (clauseAt? keyword r) previous s) := by
  induction s generalizing previous with
  | nil =>
    have hnone : clauseAt? keyword r [' '] = none := by
      have hblank := Code.keyword?_blank hkeyword []
      rw [(Code.LeavesBlank.keyword hkeyword hne).nil, List.nil_append] at hblank
      rw [clauseAt?, hblank]
      rfl
    simp [Code.findAtWordStart, hnone]
  | cons c s ih =>
    rcases clauseAt?_blank hkeyword hr (c :: s) with hsame | ⟨hnone, hnone'⟩
    · rw [List.cons_append] at hsame ⊢
      rw [Code.findAtWordStart, Code.findAtWordStart]
      cases previous.any Text.isWord with
      | true => simpa using ih (some c)
      | false =>
        cases hread : clauseAt? keyword r (c :: s) with
        | none =>
          rw [hread, Option.map_none, Option.map_eq_none_iff] at hsame
          simpa [hsame] using ih (some c)
        | some names =>
          rw [hread] at hsame
          obtain ⟨names', hread', heq⟩ := Option.map_eq_some_iff.mp hsame
          simpa [hread', namesOf] using heq
    · rw [namesOf_findAtWordStart hnone, namesOf_findAtWordStart hnone']

theorem parentsEnd_blank (previous c : Char) (s : Text) :
    parentsEnd previous (c :: s ++ [' ']) = parentsEnd previous (c :: s) := by
  unfold parentsEnd
  rw [Text.trimStart_blank]
  cases hs : Text.trimStart (c :: s) with
  | nil => rfl
  | cons d after =>
    simp only [Text.pad]
    by_cases hbrace : d = '{'
    · subst hbrace
      rfl
    · have hkeyword := Code.keyword?_blank (show ' ' ∉ "implements".toList by decide) (d :: after)
      simp only [List.cons_append, List.headD_cons] at hkeyword ⊢
      rw [hkeyword]
      cases Code.keyword? "implements".toList (d :: after) with
      | none => rfl
      | some found =>
        obtain ⟨w, rest⟩ := found
        have hend : Code.atWordEnd (rest ++ [' ']) = Code.atWordEnd rest := by
          cases rest with
          | nil => decide
          | cons e rest => rfl
        simp [hend]

theorem parentsAfter_blank (previous : Char) (s : Text) :
    parentsAfter previous (s ++ [' ']) = parentsAfter previous s := by
  induction s generalizing previous with
  | nil =>
    have hend : parentsEnd previous [' '] = true := rfl
    simp [parentsAfter, hend]
  | cons c s ih =>
    rw [List.cons_append, parentsAfter, parentsAfter, ← List.cons_append, parentsEnd_blank, ih]

theorem clause_readParents? : Clause readParents? where
  same s hs := by
    cases s with
    | nil => exact absurd rfl hs
    | cons c s => rw [List.cons_append, readParents?, readParents?, parentsAfter_blank]
  empty s hs := by
    cases s with
    | nil => rfl
    | cons c s =>
      have hall : ∀ d ∈ c :: s, Text.isBlank d = true := List.dropWhile_eq_nil_iff.mp hs
      have hafter : parentsAfter c s = some [] := by
        cases s with
        | nil => rfl
        | cons d s =>
          have htail : Text.trimStart (d :: s) = [] :=
            List.dropWhile_eq_nil_iff.mpr fun e he => hall e (List.mem_cons_of_mem _ he)
          simp [parentsAfter, parentsEnd, htail]
      have hone : qualifiedNames [c] = [] :=
        qualifiedNames_of_trimStart_eq_nil
          (List.dropWhile_eq_nil_iff.mpr (by simpa using hall c List.mem_cons_self))
      rw [readParents?, hafter]
      split
      · rfl
      · exact hone

theorem clause_readInterfaces? : Clause readInterfaces? where
  same s hs := by
    rcases Text.cut_blank (p := (· == '{')) rfl s with
      ⟨hcut, hblank⟩ | ⟨before, c, rest, hcut, -, hblank⟩
    · obtain ⟨c, t, rfl⟩ := List.exists_cons_of_ne_nil hs
      rw [readInterfaces?, readInterfaces?, hblank, hcut]
      exact congrArg some (qualifiedNames_blank (c :: t))
    · rw [readInterfaces?, readInterfaces?, hcut, hblank]
  empty s hs := by
    have hall : ∀ d ∈ s, Text.isBlank d = true := List.dropWhile_eq_nil_iff.mp hs
    have hcut : Text.cut (· == '{') s = (s, []) := by
      apply Text.cut_of_not_mem
      intro hmem
      exact absurd (hall '{' hmem) (by decide)
    rw [readInterfaces?, hcut]
    cases s with
    | nil => rfl
    | cons c s => exact qualifiedNames_of_trimStart_eq_nil hs

theorem extends?_eq (header : Text) :
    extends? header = Code.findAtWordStart (clauseAt? "extends".toList readParents?) none header :=
  rfl

theorem implements?_eq (header : Text) :
    implements? header =
      Code.findAtWordStart (clauseAt? "implements".toList readInterfaces?) none header :=
  rfl

/-- A class is read alike in front of a blank. -/
theorem read?_blank (line : Nat) (space : Option Text) (s : Text) :
    read? line space (s ++ [' ']) = read? line space s := by
  unfold read?
  rw [readHead?_blank]
  cases readHead? s with
  | none => rfl
  | some head =>
    have hparents := namesOf_blank (show ' ' ∉ "extends".toList by decide) (by decide)
      clause_readParents? none head.rest
    have hinterfaces := namesOf_blank (show ' ' ∉ "implements".toList by decide) (by decide)
      clause_readInterfaces? none head.rest
    rw [← extends?_eq, ← extends?_eq, namesOf, namesOf] at hparents
    rw [← implements?_eq, ← implements?_eq, namesOf, namesOf] at hinterfaces
    simp only [Option.map_some, Option.bind_eq_bind, Option.bind_some, Head.blank, hparents,
      hinterfaces]

/-- What is read of a trait line behind the keyword and its blanks. -/
def readTraitNames? (s : Text) : Option Text :=
  match Text.cut (fun c => c == ';' || c == '{') s with
  | (_, []) => none
  | (names, _ :: _) => some names

theorem leavesBlank_readTraitNames? : Code.LeavesBlank readTraitNames? id where
  nil := rfl
  blank s := by
    unfold readTraitNames?
    rcases Text.cut_blank (p := fun c => c == ';' || c == '{') rfl s with
      ⟨hcut, hblank⟩ | ⟨before, c, rest, hcut, -, hblank⟩
    · rw [hcut, hblank]
      rfl
    · rw [hcut, hblank]
      rfl

/-- The traits of a line are read alike in front of a blank. -/
theorem readTraits_blank (line : Text) : readTraits (line ++ [' ']) = readTraits line := by
  have h : Code.LeavesBlank (fun s => (Code.keyword? "use".toList (Text.trimStart s)).bind
      fun x => (Code.blanks? x.2).bind readTraitNames?) id :=
    (Code.LeavesBlank.andThen (k := fun _ s => (Code.blanks? s).bind readTraitNames?)
      (.keyword (by decide) (by decide)) fun _ =>
        leavesBlank_readTraitNames?.blanks.blank).trimStart
  have hsame := h.blank line
  rw [Option.map_id, id] at hsame
  exact congrArg (fun body : Option Text =>
    ((body.map qualifiedNames).getD []).map fun name => name.dropWhile (· == '\\')) hsame

end ClassDecl

end PhpLint
