import PhpLint.Proofs.Declaration.Signature
import PhpLint.Proofs.Keyed

/-!
Signatures as texts. What is written of a parameter is one part of the text between the
parentheses, and is passed over in the search for the closing one; the scrubber takes
nothing out of it but the contents of quotes. So the parameters between two parentheses
are found one by one, whatever their defaults are, and the whole declaration is read back.
-/

namespace PhpLint

namespace SignatureParameter

variable (p : SignatureParameter)

/-- The characters of a parameter up to its default. -/
def isFrontChar (c : Char) : Bool := isTypedChar c || ['&', '.', '$', '='].contains c

theorem isFrontChar_front : ∀ c ∈ p.front, isFrontChar c = true := by
  intro c hc
  simp only [front, marks, List.append_assoc, List.mem_append, List.mem_cons] at hc
  rcases hc with hc | hc | hc | rfl | hc
  · simp [isFrontChar, p.isTypedChar_typed c hc]
  · split at hc
    · rw [List.mem_singleton.mp hc]
      rfl
    · cases hc
  · split at hc
    · simp only [List.mem_cons, List.not_mem_nil, or_false, or_self] at hc
      rw [hc]
      rfl
    · cases hc
  · rfl
  · have hident := Code.isIdentPart_of_isIdentifier p.named c hc
    simp [isFrontChar, isTypedChar, SignatureType.isTypeChar, SignatureType.isUnionChar,
      Code.isQualifiedPart, hident]

/-- The parameter without the contents of quotes. -/
def code (p : SignatureParameter) : Text :=
  p.front ++
    match p.default with
    | some d => [' ', '=', ' '] ++ scrubLine d
    | none => []

/-- The default stands behind characters that are no brackets, quotes or commas. -/
theorem text_split :
    p.text = p.front ∧ p.code = p.front ∨
      ∃ lead d, IsDefault d ∧ p.text = lead ++ d ∧ p.code = lead ++ scrubLine d ∧
        ∀ c ∈ lead, isFrontChar c = true := by
  unfold text code value
  cases hdefault : p.default with
  | none => exact .inl (by simp)
  | some d =>
    refine .inr ⟨p.front ++ [' ', '=', ' '], d, p.valued d hdefault, by simp, by simp, ?_⟩
    intro c hc
    rcases List.mem_append.mp hc with hc | hc
    · exact p.isFrontChar_front c hc
    · have hsign : ∀ c ∈ [' ', '=', ' '], isFrontChar c = true :=
        List.all_iff_forall_prop.mp (by decide)
      exact hsign c hc

theorem uncommented_text : Scrubber.Uncommented .code p.text p.code := by
  have hplain {s : Text} (hs : ∀ c ∈ s, isFrontChar c = true) :
      ∀ c ∈ s, c ∉ ['/', '#', '<', '\'', '"', '`'] := fun c hc =>
    Text.not_mem_of_class (hs c hc) rfl
  rcases p.text_split with ⟨htext, hcode⟩ | ⟨lead, d, hd, htext, hcode, hlead⟩
  · rw [htext, hcode]
    exact .plain (hplain p.isFrontChar_front)
  · rw [htext, hcode]
    exact Scrubber.Uncommented.of_plain (hplain hlead)
      (Scrubber.uncommented_of_scan hd.uncommented (hd.unbraced '`' (by simp)))

theorem not_mem_code : ∀ c ∈ ['\x7b', '\x7d'], c ∉ p.code := by
  intro c hc
  have hplain {s : Text} (hs : ∀ d ∈ s, isFrontChar d = true) : c ∉ s := by
    have hbraces : ∀ d ∈ ['\x7b', '\x7d'], isFrontChar d = false :=
      List.all_iff_forall_prop.mp (by decide)
    intro hmem
    exact Bool.false_ne_true ((hbraces c hc).symm.trans (hs c hmem))
  rcases p.text_split with ⟨-, hcode⟩ | ⟨lead, d, hd, -, hcode, hlead⟩
  · rw [hcode]
    exact hplain p.isFrontChar_front
  · rw [hcode, List.mem_append, not_or]
    exact ⟨hplain hlead, hd.unbraced c (List.mem_cons_of_mem _ hc)⟩

theorem enclosed_text : Code.Enclosed p.text := by
  have hplain {s : Text} (hs : ∀ c ∈ s, isFrontChar c = true) : Code.Enclosed s :=
    Code.Enclosed.of_plain fun c hc => Text.not_mem_of_class (hs c hc) rfl
  rcases p.text_split with ⟨htext, -⟩ | ⟨lead, d, hd, htext, -, hlead⟩
  · rw [htext]
    exact hplain p.isFrontChar_front
  · rw [htext]
    exact (hplain hlead).append (Code.Enclosed.of_closeParen? hd.parentheses)

theorem isPart_text {n : Code.Nesting} (htop : n.atTop = true) : Code.IsPart ',' n p.text := by
  have hplain {s : Text} (hs : ∀ c ∈ s, isFrontChar c = true) :
      ∀ c ∈ s, c ∉ Code.nestingChars ∧ c ≠ ',' := fun c hc =>
    Code.plain_of_class rfl (hs c hc)
  rcases p.text_split with ⟨htext, -⟩ | ⟨lead, d, hd, htext, -, hlead⟩
  · rw [htext]
    exact Code.IsPart.of_plain htop (hplain p.isFrontChar_front)
  · have hcomma : ',' ∉ lead := fun hc => (hplain hlead ',' hc).2 rfl
    have hstate := Code.Nesting.atTop_foldl_plain htop fun c hc => (hplain hlead c hc).1
    rw [htext]
    refine Code.IsPart.append hcomma ((Code.isPart_top_iff hstate).mpr ?_)
    exact ⟨hd.one_part, hd.brackets⟩

end SignatureParameter

theorem Parameter.read?_of_blank (promotes : Bool) {s : Text} (h : Text.trimStart s = []) :
    read? promotes s = none := by
  have hattributes : Code.stripAttributes s = [] := by
    rw [Code.stripAttributes_of_head_ne (by simp [h]), h]
  rw [read?, hattributes]
  simp only [show Modifier.readAll modifiers [] = ([], []) from Modifier.readAll_of_anyKeyword? rfl]
  rfl

namespace FunctionDecl

/-- Parameters of distinct names are recorded in their order. -/
theorem foldl_addParameter {ps : List Parameter} {acc : Keyed Text Parameter}
    (h : (Keyed.keys acc ++ ps.map Parameter.name).Nodup) :
    ps.foldl addParameter acc = acc ++ ps.map fun p => (p.name, p) :=
  Keyed.foldl_insert Parameter.name h

end FunctionDecl

namespace Signature

variable (sig : Signature)

/-- The head of a declaration is read back. -/
theorem readHead?_head (rest : Text) :
    FunctionDecl.readHead? (sig.head ++ '(' :: rest) = some ⟨[], sig.name, '(' :: rest⟩ := by
  obtain ⟨c, more, hname, hc, -⟩ := Code.isIdentifier_iff.mp sig.named
  have hblank : Text.isBlank c = false :=
    Text.isBlank_of_isIdentPart (Text.isIdentPart_of_isIdentStart hc)
  have hnone (s : Text) :
      Code.anyKeyword? FunctionDecl.modifiers.words ("function ".toList ++ s) = none := rfl
  have hkeyword (s : Text) : Code.keyword? "function".toList ("function ".toList ++ s) =
      some ("function".toList, ' ' :: s) := rfl
  have hstart : Text.trimStart (sig.name ++ '(' :: rest) = sig.name ++ '(' :: rest := by
    rw [hname, List.cons_append, Text.trimStart_cons_of_not_blank hblank]
  have hmark : Text.strip? ['&'] (sig.name ++ '(' :: rest) = none := by
    have hne : '&' ≠ c := by
      rintro rfl
      cases hc
    rw [hname, List.cons_append, Text.strip?, if_neg hne]
  have hread : Code.name? (sig.name ++ '(' :: rest) = some (sig.name, '(' :: rest) :=
    Code.name?_append sig.named (by simp; decide)
  have hfront : Text.trimStart ("function ".toList ++ (sig.name ++ '(' :: rest)) =
      "function ".toList ++ (sig.name ++ '(' :: rest) := rfl
  have hblanks : Code.blanks? (' ' :: (sig.name ++ '(' :: rest)) =
      some (sig.name ++ '(' :: rest) := by
    rw [Code.blanks?, if_pos (by decide), hstart]
  have hmodifiers := Modifier.readAll_of_anyKeyword? (hnone (sig.name ++ '(' :: rest))
  unfold FunctionDecl.readHead? head
  simp only [List.append_assoc, hfront, hmodifiers, hkeyword, hblanks, hmark, hstart, hread,
    Option.bind_eq_bind, Option.bind_some, Option.getD_none]
  rfl

/-- Without a result type only the brace stands behind the parameters, with one there is a
colon and nothing that ends the type in front of the brace. -/
theorem tail_cases :
    sig.returnType = none ∧ sig.tail = [' ', '\x7b'] ∨
      ∃ t, sig.returnType = some t ∧ sig.tail = ':' :: (' ' :: t.text ++ [' '] ++ ['\x7b']) ∧
        ∀ c ∈ ' ' :: t.text ++ [' '], c ≠ '\x7b' ∧ c ≠ ';' := by
  unfold tail
  cases sig.returnType with
  | none => exact .inl ⟨rfl, rfl⟩
  | some t =>
    refine .inr ⟨t, rfl, by simp, fun c hc => ?_⟩
    have hclass : SignatureParameter.isTypedChar c = true := by
      simp only [List.cons_append, List.mem_cons, List.mem_append, List.not_mem_nil,
        or_false] at hc
      rcases hc with rfl | hc | rfl
      · rfl
      · simp [SignatureParameter.isTypedChar, t.isTypeChar_text c hc]
      · rfl
    have hstops : c ∉ ['\x7b', ';'] := Text.not_mem_of_class hclass rfl
    simpa using hstops

/-- The result type is read back. -/
theorem readReturnType?_tail :
    FunctionDecl.readReturnType? sig.tail = sig.returnType.map SignatureType.text := by
  rcases sig.tail_cases with ⟨htype, htail⟩ | ⟨t, htype, htail, hplain⟩
  · rw [htype, htail]
    rfl
  · have hstops : ∀ c ∈ ' ' :: t.text ++ [' '], (c == '\x7b' || c == ';') = false := by
      intro c hc
      simp [hplain c hc]
    have hcut := Text.cut_split hstops (c := '\x7b') rfl []
    have htrim : Text.trim (' ' :: t.text ++ [' ']) = t.text := by
      rw [Text.trim_blank, Text.trim, Text.trimStart_cons_of_blank (by decide)]
      exact t.trim_text
    rw [htype, htail, FunctionDecl.readReturnType?, Text.trimStart_cons_of_not_blank (by decide)]
    simp only [hcut]
    exact congrArg some htrim

/-- What stands between the parentheses once the lines of the signature are joined, cut
at the commas between parameters; the function tells what is made of a parameter. -/
def parts (sig : Signature) (f : SignatureParameter → Text) : Layout → List Text
  | .oneLine =>
    match sig.parameters with
    | [] => [[]]
    | p :: more => f p :: more.map fun p => ' ' :: f p
  | .spread _ _ => (sig.parameters.map fun p => ' ' :: f p) ++ [[' ']]

variable {f : SignatureParameter → Text}

theorem parts_ne_nil (layout : Layout) : sig.parts f layout ≠ [] := by
  unfold parts
  split
  · split <;> simp
  · simp

/-- A part is blank, or a parameter with a blank in front of it or without. -/
theorem mem_parts {layout : Layout} {part : Text} (h : part ∈ sig.parts f layout) :
    part = [] ∨ part = [' '] ∨ ∃ p ∈ sig.parameters, part = f p ∨ part = ' ' :: f p := by
  unfold parts at h
  split at h
  · split at h
    · exact .inl (List.mem_singleton.mp h)
    · rename_i p more hparameters
      rcases List.mem_cons.mp h with rfl | h
      · exact .inr (.inr ⟨p, by simp [hparameters], .inl rfl⟩)
      · obtain ⟨q, hq, rfl⟩ := List.mem_map.mp h
        exact .inr (.inr ⟨q, by simp [hparameters, hq], .inr rfl⟩)
  · rcases List.mem_append.mp h with h | h
    · obtain ⟨q, hq, rfl⟩ := List.mem_map.mp h
      exact .inr (.inr ⟨q, hq, .inr rfl⟩)
    · exact .inr (.inl (List.mem_singleton.mp h))

theorem enclosed_parts (layout : Layout) :
    Code.Enclosed (Text.join [','] (sig.parts SignatureParameter.text layout)) := by
  have hchars : ∀ s ∈ [[], [' '], [',']], s.all (· ∉ ['(', ')', '\'', '"']) = true := by decide
  have hplain {s : Text} (hs : s ∈ [[], [' '], [',']]) : Code.Enclosed s :=
    .of_plain (List.all_iff_forall_prop.mp (hchars s hs))
  refine Code.Enclosed.join (hplain (by simp)) fun part hpart => ?_
  rcases sig.mem_parts hpart with rfl | rfl | ⟨p, -, rfl | rfl⟩
  · exact hplain (by simp)
  · exact hplain (by simp)
  · exact p.enclosed_text
  · exact (hplain (s := [' ']) (by simp)).append p.enclosed_text

theorem splitTopLevel_parts (layout : Layout) :
    Code.splitTopLevel ',' (Text.join [','] (sig.parts SignatureParameter.text layout)) =
      sig.parts SignatureParameter.text layout := by
  refine Code.splitTopLevel_join (by decide) (sig.parts_ne_nil layout) ?_
  intro part hpart n htop
  have hblank : ' ' ∉ Code.nestingChars := by decide
  rcases sig.mem_parts hpart with rfl | rfl | ⟨p, -, rfl | rfl⟩
  · exact Code.isPart_nil_iff.mpr htop
  · exact Code.IsPart.of_plain htop (by simp [hblank])
  · exact p.isPart_text htop
  · change Code.IsPart ',' n ([' '] ++ p.text)
    refine Code.IsPart.append (by simp) ?_
    rw [List.foldl_cons, List.foldl_nil, Code.Nesting.step_plain htop hblank]
    exact p.isPart_text rfl

/-- The parameters are read back from the parts, and nothing else is. -/
theorem filterMap_parts (layout : Layout) (promotes : Bool) :
    (sig.parts SignatureParameter.text layout).filterMap (Parameter.read? promotes) =
      sig.parameters.map SignatureParameter.parameter := by
  have htext (p : SignatureParameter) : Parameter.read? promotes p.text = some p.parameter :=
    p.read?_text promotes [] (by simp)
  have hindented (ps : List SignatureParameter) :
      (ps.map fun p => ' ' :: p.text).filterMap (Parameter.read? promotes) =
        ps.map SignatureParameter.parameter := by
    induction ps with
    | nil => rfl
    | cons p ps ih =>
      have hp := p.read?_text promotes [' '] (List.all_iff_forall_prop.mp (by decide))
      rw [List.singleton_append] at hp
      rw [List.map_cons, List.filterMap_cons_some hp, ih, List.map_cons]
  unfold parts
  split
  · split
    · rename_i hparameters
      have hnone : Parameter.read? promotes [] = none := Parameter.read?_of_blank promotes rfl
      simp [hparameters, hnone]
    · rename_i p more hparameters
      rw [List.filterMap_cons_some (htext p), hindented, hparameters, List.map_cons]
  · have hnone : Parameter.read? promotes [' '] = none := Parameter.read?_of_blank promotes rfl
    rw [List.filterMap_append, hindented]
    simp [hnone]

/-- The declaration on one line, or on several that are joined. -/
def joined (sig : Signature) (f : SignatureParameter → Text) (layout : Layout) : Text :=
  sig.head ++ '(' :: (Text.join [','] (sig.parts f layout) ++ ')' :: sig.tail)

/-- A declaration is read back. -/
theorem read?_joined (line : Nat) (layout : Layout) :
    FunctionDecl.read? line none (sig.joined SignatureParameter.text layout) =
      some (sig.decl line none) := by
  have hclose : Code.closeParen?
      ('(' :: (Text.join [','] (sig.parts SignatureParameter.text layout) ++ ')' :: sig.tail)) =
        some (Text.join [','] (sig.parts SignatureParameter.text layout), sig.tail) :=
    (sig.enclosed_parts layout).close sig.tail
  rw [FunctionDecl.read?, joined, sig.readHead?_head]
  simp only [Option.bind_eq_bind, Option.bind_some, hclose, sig.splitTopLevel_parts,
    sig.filterMap_parts, sig.readReturnType?_tail]
  have hnames : (Keyed.keys ([] : Keyed Text Parameter) ++ (sig.parameters.map
      SignatureParameter.parameter).map Parameter.name).Nodup := by
    rw [List.map_map]
    exact sig.distinct
  rw [FunctionDecl.foldl_addParameter hnames, List.nil_append, List.map_map]
  rfl

theorem isTypedChar_head : ∀ c ∈ sig.head, SignatureParameter.isTypedChar c = true := by
  intro c hc
  rcases List.mem_append.mp hc with hc | hc
  · have hkeyword : ∀ c ∈ "function ".toList, SignatureParameter.isTypedChar c = true :=
      List.all_iff_forall_prop.mp (by decide)
    exact hkeyword c hc
  · have hident := Code.isIdentPart_of_isIdentifier sig.named c hc
    simp [SignatureParameter.isTypedChar, SignatureType.isTypeChar, SignatureType.isUnionChar,
      Code.isQualifiedPart, hident]

/-- The characters of what stands behind the parameters, up to the brace. -/
def isTailChar (c : Char) : Bool := SignatureParameter.isTypedChar c || c == ':'

theorem tail_eq : ∃ front, sig.tail = front ++ ['\x7b'] ∧ ∀ c ∈ front, isTailChar c = true := by
  rcases sig.tail_cases with ⟨-, htail⟩ | ⟨t, -, htail, -⟩
  · exact ⟨[' '], htail, List.all_iff_forall_prop.mp (by decide)⟩
  · refine ⟨':' :: ' ' :: t.text ++ [' '], htail, fun c hc => ?_⟩
    simp only [List.cons_append, List.mem_cons, List.mem_append, List.not_mem_nil, or_false] at hc
    rcases hc with rfl | rfl | hc | rfl
    · rfl
    · rfl
    · simp [isTailChar, SignatureParameter.isTypedChar, t.isTypeChar_text c hc]
    · rfl

theorem forall₂_parts (layout : Layout) :
    List.Forall₂ (Scrubber.Uncommented .code) (sig.parts SignatureParameter.text layout)
      (sig.parts SignatureParameter.code layout) := by
  have hblank : Scrubber.Uncommented .code [' '] [' '] :=
    .plain (List.all_iff_forall_prop.mp (by decide))
  have hindented (ps : List SignatureParameter) :
      List.Forall₂ (Scrubber.Uncommented .code) (ps.map fun p => ' ' :: p.text)
        (ps.map fun p => ' ' :: p.code) := by
    rw [List.forall₂_map_left_iff, List.forall₂_map_right_iff]
    exact List.forall₂_same.mpr fun p _ =>
      .of_plain (s := [' ']) (List.all_iff_forall_prop.mp (by decide))
        p.uncommented_text
  unfold parts
  split
  · split
    · exact .cons .nil .nil
    · rename_i p more _
      exact .cons p.uncommented_text (hindented more)
  · exact List.rel_append (hindented _) (.cons hblank .nil)

theorem uncommented_head : ∀ c ∈ sig.head ++ ['('], c ∉ ['/', '#', '<', '\'', '"', '`'] := by
  intro c hc
  rcases List.mem_append.mp hc with hc | hc
  · exact Text.not_mem_of_class (sig.isTypedChar_head c hc) rfl
  · rw [List.mem_singleton.mp hc]
    decide

theorem uncommented_tail : Scrubber.Uncommented .code (')' :: sig.tail) (')' :: sig.tail) := by
  obtain ⟨front, htail, hfront⟩ := sig.tail_eq
  refine .plain fun c hc => ?_
  rw [htail, List.mem_cons, List.mem_append] at hc
  rcases hc with rfl | hc | hc
  · decide
  · exact Text.not_mem_of_class (hfront c hc) rfl
  · rw [List.mem_singleton.mp hc]
    decide

theorem uncommented_joined (layout : Layout) :
    Scrubber.Uncommented .code (sig.joined SignatureParameter.text layout)
      (sig.joined SignatureParameter.code layout) := by
  have hinside := (Scrubber.Uncommented.join (sig.forall₂_parts layout)).append
    (e := ')') (by simp) sig.uncommented_tail
  have hall := Scrubber.Uncommented.of_plain sig.uncommented_head hinside
  simpa only [joined, List.append_assoc, List.singleton_append] using hall

theorem count_head {c : Char} (hc : SignatureParameter.isTypedChar c = false) :
    sig.head.count c = 0 := by
  refine List.count_eq_zero.mpr fun hmem => ?_
  rw [sig.isTypedChar_head c hmem] at hc
  cases hc

theorem count_tail {c : Char} (hc : isTailChar c = false) :
    sig.tail.count c = if c = '\x7b' then 1 else 0 := by
  obtain ⟨front, htail, hfront⟩ := sig.tail_eq
  have hnone : front.count c = 0 := by
    refine List.count_eq_zero.mpr fun hmem => ?_
    rw [hfront c hmem] at hc
    cases hc
  rw [htail, List.count_append, hnone, Nat.zero_add, List.count_singleton]
  simp only [beq_iff_eq]
  exact if_congr eq_comm rfl rfl

/-- The code of a declaration has as many opening as closing parentheses. -/
theorem parenCounts_joined (layout : Layout) :
    (sig.joined SignatureParameter.code layout).count '(' =
      (sig.joined SignatureParameter.code layout).count ')' := by
  have hinside := (Scrubber.Uncommented.join (sig.forall₂_parts layout)).parenCounts_eq
    (sig.enclosed_parts layout)
  rw [joined]
  generalize Text.join [','] (sig.parts SignatureParameter.code layout) = inside at hinside ⊢
  simp [hinside, sig.count_head (c := '(') rfl,
    sig.count_head (c := ')') rfl, sig.count_tail (c := '(') rfl, sig.count_tail (c := ')') rfl]

/-- The brace at its end is the only one of the code of a declaration. -/
theorem braceDelta_joined (layout : Layout) :
    Code.braceDelta (sig.joined SignatureParameter.code layout) = 1 := by
  have hinside : ∀ c ∈ ['\x7b', '\x7d'],
      (Text.join [','] (sig.parts SignatureParameter.code layout)).count c = 0 := by
    intro c hc
    have hsigns : ∀ d ∈ ['\x7b', '\x7d'], d ∉ [' '] ∧ d ∉ [','] :=
      List.all_iff_forall_prop.mp (by decide)
    refine List.count_eq_zero.mpr fun hmem => ?_
    rcases Text.mem_join hmem with hcomma | ⟨part, hpart, hmem⟩
    · exact (hsigns c hc).2 hcomma
    · rcases sig.mem_parts hpart with rfl | rfl | ⟨p, -, rfl | rfl⟩
      · cases hmem
      · exact (hsigns c hc).1 hmem
      · exact p.not_mem_code c hc hmem
      · rcases List.mem_cons.mp hmem with rfl | hmem
        · exact (hsigns _ hc).1 (by simp)
        · exact p.not_mem_code c hc hmem
  rw [Code.braceDelta_eq_count]
  simp only [joined, List.count_append, List.count_cons, hinside '\x7b' (by simp),
    hinside '\x7d' (by simp), sig.count_head (c := '\x7b') rfl, sig.count_head (c := '\x7d') rfl,
    sig.count_tail (c := '\x7b') rfl, sig.count_tail (c := '\x7d') rfl]
  simp

end Signature

end PhpLint
