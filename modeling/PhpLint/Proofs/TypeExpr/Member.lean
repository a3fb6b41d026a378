import PhpLint.Proofs.Code.Names
import PhpLint.Proofs.Code.Split
import PhpLint.TypeExpr.Basic

/-!
The members of a union, one at a time. A member is trimmed, ends neither in array brackets
nor in variadic dots, and is spelled as it is compared; whatever part of a union is read has
such a member or none, and a member is read back as it is. What reading drops from a part or
exchanges in it opens no bracket and no quote and closes none, so that a member stands
between separators as its part did.
-/

namespace PhpLint.TypeExpr

section Spelling

/-- What may stand behind the name of a member: its type parameters, if it has any. -/
def IsParameters (s : Text) : Prop := ∀ c ∈ s.head?, opensParameters c = true

variable {s front rest name : Text}

theorem builtinNames_spelled : ∀ name ∈ builtinNames,
    name ≠ [] ∧ name.all Text.isIdentPart = true ∧ modernName (Text.asciiLower name) = name := by
  decide

theorem isIdentPart_of_builtin (h : name ∈ builtinNames) :
    ∀ c ∈ name, Text.isIdentPart c = true :=
  List.all_eq_true.mp (builtinNames_spelled name h).2.1

theorem cut_name (hname : ∀ c ∈ name, Text.isIdentPart c = true) (hrest : IsParameters rest) :
    Text.cut opensParameters (name ++ rest) = (name, rest) := by
  have hplain : ∀ c ∈ name, opensParameters c = false := by
    intro c hc
    have hnot := Text.not_mem_of_class (hname c hc) (by decide :
      ['<', '\x7b', '('].any Text.isIdentPart = false)
    simpa [opensParameters, and_assoc] using hnot
  cases rest with
  | nil => rw [List.append_nil, Text.cut_of_all hplain]
  | cons c rest => exact Text.cut_split hplain (hrest c rfl) rest

theorem normalizeMember_append (hname : ∀ c ∈ name, Text.isIdentPart c = true)
    (hrest : IsParameters rest) :
    normalizeMember (name ++ rest) =
      if modernName (Text.asciiLower name) ∈ builtinNames then
        modernName (Text.asciiLower name) ++ rest
      else name ++ rest := by
  rw [normalizeMember, cut_name hname hrest]
  simp only [List.contains_iff_mem]

/-- The names that are exchanged consist of letters. -/
theorem isIdentPart_of_modernName (h : modernName (Text.asciiLower name) ∈ builtinNames) :
    ∀ c ∈ name, Text.isIdentPart c = true := by
  have hlower : (Text.asciiLower name).all Text.isIdentPart = true := by
    have hmodern : modernName (Text.asciiLower name) = Text.asciiLower name ∨
        Text.asciiLower name ∈
          ["boolean", "integer", "double", "real"].map String.toList := by
      unfold modernName
      repeat' split
      all_goals simp_all
    rcases hmodern with hmodern | hmodern
    · rw [hmodern] at h
      exact (builtinNames_spelled _ h).2.1
    · exact List.all_eq_true.mp (by decide :
        (["boolean", "integer", "double", "real"].map String.toList).all
          (·.all Text.isIdentPart) = true) _ hmodern
  intro c hc
  exact Text.isIdentPart_of_toLower
    (List.all_eq_true.mp hlower _ (List.mem_map_of_mem hc))

/-- Either a member stays as it is, or the name it starts with is exchanged. -/
theorem normalizeMember_cases (s : Text) :
    normalizeMember s = s ∨ ∃ old name rest, s = old ++ rest ∧
      (∀ c ∈ old, Text.isIdentPart c = true) ∧ name ∈ builtinNames ∧ IsParameters rest ∧
        normalizeMember s = name ++ rest := by
  obtain ⟨old, rest, rfl, hrest, hcut⟩ : ∃ old rest, s = old ++ rest ∧ IsParameters rest ∧
      Text.cut opensParameters s = (old, rest) := by
    rcases Text.cut_cases opensParameters s with ⟨-, hcut⟩ | ⟨old, c, rest, rfl, -, hc, hcut⟩
    · exact ⟨s, [], (List.append_nil s).symm, by simp [IsParameters], hcut⟩
    · exact ⟨old, c :: rest, rfl, by simpa [IsParameters] using hc, hcut⟩
  by_cases hname : modernName (Text.asciiLower old) ∈ builtinNames
  · have hold := isIdentPart_of_modernName hname
    refine .inr ⟨old, _, rest, rfl, hold, hname, hrest, ?_⟩
    rw [normalizeMember_append hold hrest, if_pos hname]
  · left
    rw [normalizeMember, hcut]
    simp [hname]

theorem normalizeMember_builtin (hname : name ∈ builtinNames) (hrest : IsParameters rest) :
    normalizeMember (name ++ rest) = name ++ rest := by
  rw [normalizeMember_append (isIdentPart_of_builtin hname) hrest,
    (builtinNames_spelled name hname).2.2, if_pos hname]

theorem normalizeMember_idem (s : Text) :
    normalizeMember (normalizeMember s) = normalizeMember s := by
  rcases normalizeMember_cases s with hsame | ⟨old, name, rest, -, -, hname, hrest, hnormal⟩
  · rw [hsame, hsame]
  · rw [hnormal, normalizeMember_builtin hname hrest]

end Spelling

section Suffixes

/-- What is dropped at the end of a member is array brackets, variadic dots and blanks. -/
theorem dropSuffixes_induction {P : Text → Prop} (hbrackets : ∀ s, P (s ++ ['[', ']']) → P s)
    (hdots : ∀ s, P (s ++ ['.', '.', '.']) → P s)
    (hblank : ∀ s c, Text.isBlank c = true → P (s ++ [c]) → P s) {part : Text} (h : P part) :
    P (dropSuffixes part) := by
  have hreversed : ∀ blanks s, P s.reverse → P (dropSuffixesReversed blanks s).reverse := by
    intro blanks s hs
    fun_induction dropSuffixesReversed blanks s with
    | case1 => exact hs
    | case2 blanks s ih => exact ih (hbrackets _ (by simpa using hs))
    | case3 blanks s ih => exact ih (hdots _ (by simpa using hs))
    | case4 blanks c s _ _ hc ih =>
      exact ih (hblank _ c (Bool.and_eq_true _ _ ▸ hc).2 (by simpa using hs))
    | case5 => exact hs
  rw [dropSuffixes]
  exact hreversed false part.reverse (by simpa using h)

theorem dropSuffixes_prefix (part : Text) : dropSuffixes part <+: part := by
  refine dropSuffixes_induction (P := (· <+: part)) ?_ ?_ ?_ List.prefix_rfl
  · exact fun s h => (List.prefix_append s _).trans h
  · exact fun s h => (List.prefix_append s _).trans h
  · exact fun s c _ h => (List.prefix_append s _).trans h

/-- What is left of a reversed member starts with nothing that is dropped. -/
theorem dropSuffixesReversed_starts {blanks : Bool} {s : Text}
    (h : blanks = true ∨ ∀ c ∈ s.head?, Text.isBlank c = false) :
    ¬ [']', '['] <+: dropSuffixesReversed blanks s ∧
      ¬ ['.', '.', '.'] <+: dropSuffixesReversed blanks s ∧
      ∀ c ∈ (dropSuffixesReversed blanks s).head?, Text.isBlank c = false := by
  fun_induction dropSuffixesReversed blanks s with
  | case1 => simp
  | case2 blanks s ih => exact ih (.inl rfl)
  | case3 blanks s ih => exact ih (.inl rfl)
  | case4 blanks c s _ _ hc ih => exact ih (.inl rfl)
  | case5 blanks c s hbrackets hdots hc =>
    refine ⟨?_, ?_, fun d hd => ?_⟩
    · rintro ⟨rest, hrest⟩
      obtain ⟨rfl, rfl⟩ := List.cons.inj hrest
      exact hbrackets _ rfl rfl
    · rintro ⟨rest, hrest⟩
      obtain ⟨rfl, rfl⟩ := List.cons.inj hrest
      exact hdots _ rfl rfl
    · obtain rfl : c = d := Option.some.inj hd
      rcases h with rfl | h
      · simpa using hc
      · exact h c rfl

/-- A member but for its spelling. -/
structure IsBare (s : Text) : Prop where
  nonempty : s ≠ []
  trimmed : Text.trim s = s
  not_list : ¬ ['[', ']'] <:+ s
  not_variadic : ¬ ['.', '.', '.'] <:+ s

variable {s part : Text}

theorem dropSuffixes_bare (h : Text.trim part = part) (hne : dropSuffixes part ≠ []) :
    IsBare (dropSuffixes part) := by
  have hends : ∀ c ∈ part.reverse.head?, Text.isBlank c = false := by
    intro c hc
    rw [List.head?_reverse] at hc
    exact Text.not_blank_of_trimEnd part c
      (by rwa [(Text.trimStart_and_trimEnd_of_trim h).2])
  obtain ⟨hlist, hvariadic, hback⟩ := dropSuffixesReversed_starts (.inr hends)
  refine ⟨hne, Text.trim_eq_self (fun c hc => ?_) fun c hc => ?_, fun hsuffix => ?_,
    fun hsuffix => ?_⟩
  · obtain ⟨back, hback⟩ := dropSuffixes_prefix part
    obtain ⟨t, ht⟩ := List.head?_eq_some_iff.mp (Option.mem_def.mp hc)
    rw [ht, List.cons_append] at hback
    have hstart := (Text.trimStart_and_trimEnd_of_trim h).1
    rw [← hback] at hstart
    exact Text.not_blank_of_trimStart hstart
  · exact hback c (by rwa [dropSuffixes, List.getLast?_reverse] at hc)
  · exact hlist (List.reverse_suffix.mp (by simpa [dropSuffixes] using hsuffix))
  · exact hvariadic (List.reverse_suffix.mp (by simpa [dropSuffixes] using hsuffix))

theorem IsBare.dropSuffixes_eq (h : IsBare s) : dropSuffixes s = s := by
  have hlist : ¬ [']', '['] <+: s.reverse := fun hprefix =>
    h.not_list (List.reverse_prefix.mp (by simpa using hprefix))
  have hvariadic : ¬ ['.', '.', '.'] <+: s.reverse := fun hprefix =>
    h.not_variadic (List.reverse_prefix.mp (by simpa using hprefix))
  have hkeep : dropSuffixesReversed false s.reverse = s.reverse := by
    unfold dropSuffixesReversed
    split
    · rename_i hs
      exact hs.symm
    · rename_i rest hs
      exact absurd ⟨rest, hs.symm⟩ hlist
    · rename_i rest hs
      exact absurd ⟨rest, hs.symm⟩ hvariadic
    · rename_i hs
      simpa using hs.symm
  rw [dropSuffixes, hkeep, List.reverse_reverse]

end Suffixes

section Reading

/-- A member as it is compared. -/
structure IsMember (s : Text) : Prop extends IsBare s where
  normal : normalizeMember s = s

/-- A suffix does not reach beyond a character that it does not have. -/
theorem suffix_of_not_mem {tail u v : Text} {c : Char} (hc : c ∉ tail) (h : tail <:+ u ++ c :: v) :
    tail <:+ c :: v := by
  refine (List.suffix_or_suffix_of_suffix h (List.suffix_append u (c :: v))).resolve_right ?_
  exact fun hsuffix => hc (hsuffix.subset List.mem_cons_self)

variable {s part core m name old rest tail : Text}

/-- Exchanging the name in front of type parameters brings no new end. -/
theorem suffix_of_exchanged (hname : ∀ c ∈ name, Text.isIdentPart c = true)
    (hrest : IsParameters rest) (htail : tail ≠ [])
    (hends : (tail.all fun c => !Text.isIdentPart c && !opensParameters c) = true)
    (h : tail <:+ name ++ rest) : tail <:+ rest := by
  have hpart : ∀ c ∈ tail, Text.isIdentPart c = false ∧ opensParameters c = false := by
    simpa using hends
  cases rest with
  | nil =>
    rw [List.append_nil] at h
    obtain ⟨c, hc⟩ := List.exists_mem_of_ne_nil tail htail
    exact absurd (hname c (h.subset hc)) (by simp [(hpart c hc).1])
  | cons c rest =>
    exact suffix_of_not_mem (fun hc => by simpa [(hpart c hc).2] using hrest c rfl) h

theorem trim_exchanged (hname : name ∈ builtinNames) (h : Text.trim (old ++ rest) = old ++ rest) :
    Text.trim (name ++ rest) = name ++ rest := by
  have hnonempty := (builtinNames_spelled name hname).1
  have hletter : ∀ c ∈ name, Text.isBlank c = false := fun c hc =>
    Text.isBlank_of_isIdentPart (isIdentPart_of_builtin hname c hc)
  refine Text.trim_eq_self (fun c hc => ?_) fun c hc => ?_
  · rw [List.head?_append_of_ne_nil _ hnonempty] at hc
    exact hletter c (List.mem_of_mem_head? hc)
  · rw [List.getLast?_append] at hc
    cases hlast : rest.getLast? with
    | none =>
      rw [hlast, Option.none_or] at hc
      exact hletter c (List.mem_of_mem_getLast? hc)
    | some d =>
      refine Text.not_blank_of_trimEnd (old ++ rest) c ?_
      rw [(Text.trimStart_and_trimEnd_of_trim h).2, List.getLast?_append, hlast]
      rwa [hlast] at hc

theorem IsBare.normalize (h : IsBare s) : IsMember (normalizeMember s) := by
  refine { toIsBare := ?_, normal := normalizeMember_idem s }
  rcases normalizeMember_cases s with hsame | ⟨old, name, rest, rfl, -, hname, hrest, hnormal⟩
  · rwa [hsame]
  · have hident := isIdentPart_of_builtin hname
    have hback : rest <:+ old ++ rest := List.suffix_append old rest
    rw [hnormal]
    refine ⟨by simp [(builtinNames_spelled name hname).1], trim_exchanged hname h.trimmed,
      fun hlist => h.not_list ?_, fun hvariadic => h.not_variadic ?_⟩
    · exact (suffix_of_exchanged hident hrest (by simp) (by decide) hlist).trans hback
    · exact (suffix_of_exchanged hident hrest (by simp) (by decide) hvariadic).trans hback

/-- The member of a part of a union, if it has one. -/
def member? (part : Text) : Option Text :=
  if (readPart part).2.isEmpty then none else some (normalizeMember (readPart part).2)

theorem readPart_marked (h : Text.trim part = '?' :: rest) :
    readPart part = (true, dropSuffixes (Text.trimStart rest)) := by
  rw [readPart, h]
  rfl

theorem readPart_unmarked (h : ¬ ['?'] <+: Text.trim part) :
    readPart part = (false, dropSuffixes (Text.trim part)) := by
  rw [readPart]
  split
  · rename_i rest hpart
    exact absurd ⟨rest, hpart.symm⟩ h
  · rfl

theorem readPart_fst_eq_true_iff : (readPart part).1 = true ↔ ['?'] <+: Text.trim part := by
  by_cases h : ['?'] <+: Text.trim part
  · obtain ⟨rest, hpart⟩ := h
    simp [readPart_marked hpart.symm, ← hpart]
  · simp [readPart_unmarked h, h]

/-- What is read of a part is a stretch of it that is trimmed: in front of it stand blanks
and at most a question mark, behind it stand blanks. -/
theorem exists_core (part : Text) : ∃ front core back, part = front ++ core ++ back ∧
    (∀ c ∈ front, Text.isBlank c = true ∨ c = '?') ∧ (∀ c ∈ back, Text.isBlank c = true) ∧
      Text.trim core = core ∧ (readPart part).2 = dropSuffixes core := by
  obtain ⟨front, back, hpart, hfront, hback⟩ := Text.exists_blanks_around part
  by_cases hmark : ['?'] <+: Text.trim part
  · obtain ⟨rest, hrest⟩ := hmark
    obtain ⟨more, hmore, hblank⟩ := Text.exists_blanks rest
    have htrim : Text.trim part = '?' :: more ++ Text.trimStart rest := by
      rw [List.cons_append, ← hmore, ← hrest]
      rfl
    refine ⟨front ++ '?' :: more, Text.trimStart rest, back, ?_, ?_, hback,
      Text.trim_eq_self (fun c hc => ?_) fun c hc => ?_, ?_⟩
    · rw [hpart, htrim]
      simp
    · simp only [List.mem_append, List.mem_cons]
      rintro c (hc | rfl | hc)
      · exact .inl (hfront c hc)
      · exact .inr rfl
      · exact .inl (hblank c hc)
    · obtain ⟨t, ht⟩ := List.head?_eq_some_iff.mp (Option.mem_def.mp hc)
      exact Text.not_blank_of_trimStart ht
    · refine Text.not_blank_of_trimEnd (Text.trimStart part) c ?_
      rw [← Text.trim, htrim, List.getLast?_append, Option.mem_def.mp hc, Option.some_or]
      rfl
    · rw [readPart_marked hrest.symm]
      rfl
  · exact ⟨front, Text.trim part, back, hpart, fun c hc => .inl (hfront c hc), hback,
      Text.trim_trim part, by rw [readPart_unmarked hmark]⟩

theorem isMember_of_member? (h : member? part = some m) : IsMember m := by
  obtain ⟨-, core, -, -, -, -, hcore, hread⟩ := exists_core part
  rw [member?, hread] at h
  split at h
  · cases h
  · rename_i hne
    rw [← Option.some.inj h]
    exact (dropSuffixes_bare hcore (by simpa using hne)).normalize

/-- A member is read back. -/
theorem IsMember.member?_eq (h : IsMember m) (hmark : ¬ ['?'] <+: m) : member? m = some m := by
  have hread : readPart m = (false, m) := by
    rw [readPart_unmarked (by rwa [h.trimmed]), h.trimmed, h.dropSuffixes_eq]
  rw [member?, hread, h.normal]
  simp [h.nonempty]

end Reading

section Nesting

open Code

/-- Between separators the second text stands as the first one does. -/
structure Replaces (s t : Text) : Prop where
  unbroken : Unbroken '|' {} s → Unbroken '|' {} t
  closed : (s.foldl Nesting.step {}).atTop = true → (t.foldl Nesting.step {}).atTop = true

namespace Replaces

variable {s t u part m : Text} {c : Char}

theorem refl (s : Text) : Replaces s s := ⟨id, id⟩

theorem trans (hst : Replaces s t) (htu : Replaces t u) : Replaces s u :=
  ⟨htu.unbroken ∘ hst.unbroken, htu.closed ∘ hst.closed⟩

theorem of_end {back : Text} (h : ((s ++ back).foldl Nesting.step {}).atTop = true →
    (s.foldl Nesting.step {}).atTop = true) : Replaces (s ++ back) s :=
  ⟨fun hunbroken => (unbroken_append_iff.mp hunbroken).1, h⟩

theorem front {front old : Text} (hold : ∀ c ∈ old, c ∉ nestingChars ∧ c ≠ '|')
    (hfront : ∀ c ∈ front, c ∉ nestingChars ∧ c ≠ '|') (s : Text) :
    Replaces (old ++ s) (front ++ s) where
  unbroken := by
    rw [unbroken_plain_append_iff hold, unbroken_plain_append_iff hfront]
    exact id
  closed := by
    rw [atTop_plain_append fun c hc => (hold c hc).1,
      atTop_plain_append fun c hc => (hfront c hc).1]
    exact id

theorem dropSuffixes (part : Text) : Replaces part (TypeExpr.dropSuffixes part) := by
  refine dropSuffixes_induction (P := Replaces part) ?_ ?_ ?_ (refl part)
  · exact fun s h => h.trans (of_end atTop_of_append_brackets)
  · exact fun s h => h.trans (of_end (atTop_of_append_plain (by simp [nestingChars])))
  · refine fun s c hc h => h.trans (of_end (atTop_of_append_plain ?_))
    simpa using Text.not_mem_of_class hc (by decide : nestingChars.any Text.isBlank = false)

theorem normalizeMember (s : Text) : Replaces s (TypeExpr.normalizeMember s) := by
  have hident {name : Text} (hname : ∀ c ∈ name, Text.isIdentPart c = true) :
      ∀ c ∈ name, c ∉ nestingChars ∧ c ≠ '|' :=
    fun c hc => plain_of_class (by decide) (hname c hc)
  rcases normalizeMember_cases s with hsame | ⟨old, name, rest, rfl, hold, hname, -, hnormal⟩
  · rw [hsame]
    exact refl s
  · rw [hnormal]
    exact front (hident hold) (hident (isIdentPart_of_builtin hname)) rest

/-- A member stands between separators as its part did. -/
theorem member? (h : TypeExpr.member? part = some m) : Replaces part m := by
  obtain ⟨before, core, back, rfl, hbefore, hback, -, hread⟩ := exists_core part
  have hplain : ∀ c ∈ before, c ∉ nestingChars ∧ c ≠ '|' := by
    intro c hc
    rcases hbefore c hc with hblank | rfl
    · exact plain_of_class (by decide) hblank
    · decide
  have hends : ∀ c ∈ back, c ∉ nestingChars := fun c hc =>
    Text.not_mem_of_class (hback c hc) (by decide)
  have hcore : Replaces (before ++ core ++ back) core :=
    (of_end (atTop_of_append_plain hends)).trans (front hplain (List.forall_mem_nil _) core)
  rw [TypeExpr.member?, hread] at h
  split at h
  · cases h
  · rw [← Option.some.inj h]
    exact (hcore.trans (dropSuffixes core)).trans (normalizeMember _)

end Replaces

end Nesting

end PhpLint.TypeExpr
