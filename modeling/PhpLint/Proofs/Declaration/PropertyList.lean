import PhpLint.Declaration.Property
import PhpLint.Proofs.Code.Constant
import PhpLint.Proofs.Code.Words

/-!
The names that a property declaration lists, each with a constant expression as its default or
without one. The list is cut at the commas outside of brackets and quotes, where an angle
bracket counts as a bracket. So the items are read back exactly if each default is one part of
the list; otherwise one of them is cut short, or goes on into what stands behind it.
-/

namespace PhpLint

namespace Property.Item

/-- The default, with the equals sign in front of it. -/
def value (item : Item) : Text :=
  match item.default with
  | some d => [' ', '=', ' '] ++ d
  | none => []

/-- The item as written. -/
def text (item : Item) : Text := '$' :: (item.name ++ item.value)

/-- The name is an identifier, and the default a constant expression. -/
structure Written (item : Item) : Prop where
  named : Code.isIdentifier item.name = true
  valued : ∀ d ∈ item.default, Code.IsConstant Code.operators false d

/-- Whether the name or the default has the word of a function or of a constant in it. -/
def mentionsOther (item : Item) : Bool :=
  isOtherMember item.name || item.default.any isOtherMember

/-- The default is one part of the list in which the item stands. -/
def IsOnePart (item : Item) : Prop := ∀ d ∈ item.default, Code.IsPart ',' {} d

end Property.Item

/-- Items with commas between them. -/
def Property.listed (items : List Property.Item) : Text :=
  Text.join [',', ' '] (items.map Property.Item.text)

namespace Property

theorem isOtherMember_append {c : Char} (hc : Text.isWord c = false) (s t : Text) :
    isOtherMember (s ++ c :: t) = (isOtherMember s || isOtherMember t) := by
  rw [isOtherMember, Code.words_append hc, List.any_append]
  rfl

theorem isOtherMember_cons {c : Char} (hc : Text.isWord c = false) (t : Text) :
    isOtherMember (c :: t) = isOtherMember t :=
  isOtherMember_append hc [] t

theorem Item.isOtherMember_text (item : Item) : isOtherMember item.text = item.mentionsOther := by
  rw [Item.text, isOtherMember_cons (by decide), Item.value, Item.mentionsOther]
  cases item.default with
  | none => simp
  | some d =>
    change isOtherMember (item.name ++ ' ' :: '=' :: ' ' :: d) = _
    rw [isOtherMember_append (by decide), isOtherMember_cons (by decide),
      isOtherMember_cons (by decide), Option.any_some]

namespace Item

variable {item : Item}

theorem Written.inline_name (h : item.Written) : Code.Inline ('$' :: item.name) := by
  have hdollar : Code.Inline ['$'] := .of_plain (List.all_eq_true.mp rfl)
  exact hdollar.append (.of_class rfl (Code.isIdentPart_of_isIdentifier h.named))

theorem Written.inline_text (h : item.Written) : Code.Inline item.text := by
  have hvalue : Code.Inline item.value := by
    unfold value
    split
    · rename_i d hd
      have hsign : Code.Inline [' ', '=', ' '] := .of_plain (List.all_eq_true.mp rfl)
      exact hsign.append ((h.valued d hd).facts fun _ hop => hop).2.1
    · exact .nil
  exact h.inline_name.append hvalue

theorem identifier?_append {name rest : Text} (h : Code.isIdentifier name = true)
    (hrest : ∀ c ∈ rest.head?, Text.isIdentPart c = false) :
    Code.identifier? (name ++ rest) = some (name, rest) := by
  obtain ⟨c, t, rfl, hc, ht⟩ := Code.isIdentifier_iff.mp h
  exact Code.readRun?_append hc ht hrest

/-- What is read where a default is cut short, or goes on, is another default. -/
theorem trim_ne_of_broken {d part : Text} (hd : Text.Trimmed d)
    (hpart : (∃ behind, d = part ++ ',' :: behind) ∨
      ∃ c more, Text.isBlank c = false ∧ part = d ++ c :: more) : Text.trim part ≠ d := by
  intro heq
  have hlength := congrArg List.length heq
  rcases hpart with ⟨behind, rfl⟩ | ⟨c, more, hc, rfl⟩
  · have hshorter : (Text.trim part).length ≤ part.length :=
      (Text.dropEndWhile_prefix _ _).length_le.trans (List.dropWhile_suffix _).length_le
    simp only [List.length_append, List.length_cons] at hlength
    omega
  · rw [Text.trim, hd.trimStart_append, Text.trimEnd_append hc] at hlength
    simp at hlength

/-- What stands in front of a default; the items of a list have a blank in front of them. -/
def lead (front name : Text) : Text := front ++ '$' :: (name ++ [' ', '=', ' '])

theorem append_text (front name d : Text) :
    front ++ text ⟨name, some d⟩ = lead front name ++ d := by
  simp [text, value, lead]

variable {front : Text} (hfront : ∀ c ∈ front, c = ' ')
include hfront

theorem trimStart_front (s : Text) : Text.trimStart (front ++ '$' :: s) = '$' :: s := by
  have hblank : ∀ c ∈ front, Text.isBlank c = true := by
    intro c hc
    rw [hfront c hc]
    rfl
  rw [Text.trimStart_append_of_blank hblank, Text.trimStart_cons_of_not_blank (by decide)]

theorem plain_lead {name : Text} (hname : Code.isIdentifier name = true) :
    ∀ c ∈ lead front name, c ∉ Code.nestingChars ∧ c ≠ ',' := by
  have hsigns : ∀ c ∈ ['$', ' ', '='], c ∉ Code.nestingChars ∧ c ≠ ',' :=
    List.all_iff_forall_prop.mp (by decide)
  intro c hc
  simp only [lead, List.mem_append, List.mem_cons, List.not_mem_nil, or_false] at hc
  rcases hc with hc | rfl | hc | rfl | rfl | rfl
  · exact hfront c hc ▸ hsigns ' ' (by simp)
  · exact hsigns '$' (by simp)
  · exact Code.plain_of_class rfl (Code.isIdentPart_of_isIdentifier hname c hc)
  · exact hsigns ' ' (by simp)
  · exact hsigns '=' (by simp)
  · exact hsigns ' ' (by simp)

/-- Whatever stands behind the equals sign is the default. -/
theorem readItem?_lead {name : Text} (hname : Code.isIdentifier name = true) (value : Text) :
    readItem? (lead front name ++ value) =
      some ⟨name, if (Text.trim value).isEmpty then none else some (Text.trim value)⟩ := by
  have hread : Code.identifier? (name ++ ' ' :: '=' :: ' ' :: value) =
      some (name, ' ' :: '=' :: ' ' :: value) := by
    refine identifier?_append hname fun c hc => ?_
    obtain rfl := Option.some.inj hc
    decide
  have hvalue : Text.trim (' ' :: value) = Text.trim value := by
    rw [Text.trim, Text.trimStart_cons_of_blank (by decide), Text.trim]
  have hsign : Text.trimStart (' ' :: '=' :: ' ' :: value) = '=' :: ' ' :: value := rfl
  have hlead : lead front name ++ value =
      front ++ '$' :: (name ++ ' ' :: '=' :: ' ' :: value) := by
    simp [lead]
  rw [readItem?, hlead, trimStart_front hfront]
  simp only [hread, Option.bind_eq_bind, Option.bind_some, hsign, hvalue]

theorem readItem?_text (h : item.Written) : readItem? (front ++ item.text) = some item := by
  obtain ⟨name, default⟩ := item
  cases default with
  | none =>
    have hread : Code.identifier? (name ++ []) = some (name, []) :=
      identifier?_append h.named (by simp)
    change readItem? (front ++ '$' :: (name ++ [])) = _
    rw [readItem?, trimStart_front hfront]
    simp only [hread, Option.bind_eq_bind, Option.bind_some, Text.trimStart_nil]
  | some d =>
    have htrim := ((h.valued d rfl).facts fun _ hop => hop).1
    rw [append_text, readItem?_lead hfront h.named, htrim.trim_eq, if_neg (by simp [htrim.ne_nil])]

theorem isPart_text (h : item.Written) (hone : item.IsOnePart) :
    Code.IsPart ',' {} (front ++ item.text) := by
  obtain ⟨name, default⟩ := item
  cases default with
  | none =>
    refine Code.IsPart.of_plain rfl fun c hc => plain_lead hfront h.named c ?_
    simp only [text, value, lead, List.append_nil, List.mem_append, List.mem_cons] at hc ⊢
    rcases hc with hc | rfl | hc
    · exact .inl hc
    · exact .inr (.inl rfl)
    · exact .inr (.inr (.inl hc))
  | some d =>
    have hplain := plain_lead hfront h.named
    have hopen := Code.Nesting.atTop_foldl_plain (n := {}) rfl fun c hc => (hplain c hc).1
    rw [append_text]
    refine Code.IsPart.append (fun hc => (hplain _ hc).2 rfl) ?_
    exact (Code.isPart_top_iff hopen).mpr (hone d rfl)

/-- If the default is not one part, the first item that is read is not this one. -/
theorem filterMap_ne_of_broken (h : item.Written) (hbroken : ¬ item.IsOnePart) {rest : Text}
    (hrest : rest = [] → ((front ++ item.text).foldl Code.Nesting.step {}).atTop = true)
    (hhead : ∀ c ∈ rest.head?, Text.isBlank c = false) (others : List Item) :
    (Code.splitTopLevel ',' (front ++ item.text ++ rest)).filterMap readItem? ≠ item :: others := by
  obtain ⟨name, default⟩ := item
  obtain ⟨d, rfl, hpart⟩ : ∃ d, default = some d ∧ ¬ Code.IsPart ',' {} d := by
    simpa [IsOnePart, Option.mem_def] using hbroken
  have htrim := ((h.valued d rfl).facts fun _ hop => hop).1
  have hplain := plain_lead hfront h.named
  have hopen := Code.Nesting.atTop_foldl_plain (n := {}) rfl fun c hc => (hplain c hc).1
  rw [append_text, List.foldl_append, Code.Nesting.atTop_foldl hopen] at hrest
  -- The first part is what stands in front of the default, with the first part of the rest.
  obtain ⟨part, parts, hparts, hcut⟩ := Code.exists_head_of_not_isPart hpart hrest
  obtain ⟨part', parts', hparts', hall⟩ := Code.splitFrom_append_unbroken
    (Code.IsPart.of_plain (n := {}) rfl hplain).split_eq (d ++ rest)
  rw [Code.splitFrom_top hopen, hparts] at hparts'
  obtain ⟨rfl, rfl⟩ := List.cons.inj hparts'
  have htop : Code.splitTopLevel ',' (lead front name ++ (d ++ rest)) =
      (lead front name ++ part) :: parts := hall
  have hne : Text.trim part ≠ d := by
    refine trim_ne_of_broken htrim (hcut.imp_right ?_)
    rintro ⟨c, more, hc, rfl⟩
    exact ⟨c, more, hhead c hc, rfl⟩
  rw [append_text, List.append_assoc, htop,
    List.filterMap_cons_some (readItem?_lead hfront h.named part)]
  intro heq
  have hdefault := congrArg Item.default (List.cons.inj heq).1
  simp only at hdefault
  split at hdefault
  · cases hdefault
  · exact hne (Option.some.inj hdefault)

end Item

theorem listed_cons (item next : Item) (rest : List Item) :
    listed (item :: next :: rest) = item.text ++ ',' :: ' ' :: listed (next :: rest) := by
  simp [listed, Text.join]

theorem inline_listed {items : List Item} (h : ∀ item ∈ items, item.Written) :
    Code.Inline (listed items) := by
  induction items with
  | nil => exact .nil
  | cons item rest ih =>
    rw [List.forall_mem_cons] at h
    cases rest with
    | nil => exact h.1.inline_text
    | cons next rest =>
      have hcomma : Code.Inline [',', ' '] := .of_plain (List.all_eq_true.mp rfl)
      exact (h.1.inline_text.append hcomma).append (ih h.2)

theorem isOtherMember_listed (items : List Item) :
    isOtherMember (listed items) = items.any Item.mentionsOther := by
  have hword (item : Item) : ((Code.words item.text).any fun w =>
      Code.foldsTo w "function".toList || Code.foldsTo w "const".toList) = item.mentionsOther :=
    item.isOtherMember_text
  rw [isOtherMember, listed, Code.words_join (by simp) (List.all_iff_forall_prop.mp (by decide)),
    List.any_flatMap, List.any_map]
  simp only [Function.comp_def, hword]

/-- The semicolon at the end belongs to the list unless everything in front of it is closed. -/
def ending (s : Text) : Text := if (s.foldl Code.Nesting.step {}).atTop then [] else [';']

theorem headD_splitTopLevel {s : Text} (h : Code.Inline s) :
    (Code.splitTopLevel ';' (s ++ [';'])).headD [] = s ++ ending s := by
  have hone := h.unbroken {} rfl
  unfold ending
  split
  · rename_i htop
    have happend : Code.splitFrom ';' {} (s ++ [';']) =
        Code.splitFrom ';' {} s ++ Code.splitTopLevel ';' [] :=
      Code.splitFrom_append_top (by decide) htop []
    rw [Code.splitTopLevel, happend, hone]
    simp
  · rename_i hopen
    obtain ⟨part, parts, hparts, hsplit⟩ := Code.splitFrom_append_unbroken hone [';']
    have hseparates : (s.foldl Code.Nesting.step {}).separates ';' ';' = false := by
      simp [Code.Nesting.separates, hopen]
    rw [Code.splitFrom, hseparates, if_neg (by simp), Code.splitFrom] at hparts
    rw [Code.splitTopLevel, hsplit, ← (List.cons.inj hparts).1, List.headD_cons]

theorem ending_of_top {s : Text} (h : (s.foldl Code.Nesting.step {}).atTop = true) :
    ending s = [] :=
  if_pos h

/-- Behind a text that is closed, and a comma, the list ends as on its own. -/
theorem ending_append {s : Text} (h : (s.foldl Code.Nesting.step {}).atTop = true) (t : Text) :
    ending (s ++ ',' :: t) = ending t := by
  have hcomma : ((s.foldl Code.Nesting.step {}).step ',').atTop = true := by
    rw [Code.Nesting.step_plain h (by decide)]
    rfl
  rw [ending, List.foldl_append, List.foldl_cons, Code.Nesting.atTop_foldl hcomma, ending]

/-- A brace stands behind the equals sign of a default. -/
theorem brace_behind_sign {items : List Item} (h : ∀ item ∈ items, item.Written) :
    '\x7b' ∉ listed items ∨ ∃ u v, listed items = u ++ '=' :: v ∧ '\x7b' ∉ u := by
  induction items with
  | nil => exact .inl (by simp [listed, Text.join])
  | cons item rest ih =>
    rw [List.forall_mem_cons] at h
    obtain ⟨name, default⟩ := item
    have hbrace : '\x7b' ∉ Item.lead [] name := fun hc =>
      (Item.plain_lead (by simp) h.1.named _ hc).1 (by decide)
    simp only [Item.lead, List.nil_append, List.mem_cons, List.mem_append, not_or] at hbrace
    obtain ⟨hdollar, hname, -⟩ := hbrace
    obtain ⟨behind, hlisted⟩ : ∃ behind, listed (⟨name, default⟩ :: rest) =
        Item.text ⟨name, default⟩ ++ behind :=
      ⟨_, by rw [listed, List.map_cons, Text.join_cons]⟩
    cases default with
    | some d =>
      refine .inr ⟨'$' :: (name ++ [' ']), ' ' :: d ++ behind, ?_, by simp [hname]⟩
      simp [hlisted, Item.text, Item.value]
    | none =>
      have htext : Item.text ⟨name, none⟩ = '$' :: name := by simp [Item.text, Item.value]
      cases rest with
      | nil => exact .inl (by simp [listed, Text.join, htext, hname])
      | cons next rest =>
        rw [listed_cons, htext]
        rcases ih h.2 with hnone | ⟨u, v, hmore, hu⟩
        · exact .inl (by simp [hname, hnone])
        · exact .inr ⟨'$' :: name ++ ',' :: ' ' :: u, v, by simp [hmore], by simp [hname, hu]⟩

/-- So no hooks are cut off. -/
theorem dropHooks_listed {items : List Item} (h : ∀ item ∈ items, item.Written) {tail : Text}
    (htail : '\x7b' ∉ tail) : dropHooks (listed items ++ tail) = listed items ++ tail := by
  rcases brace_behind_sign h with hnone | ⟨u, v, hlisted, hu⟩
  · rw [dropHooks, Text.cut_of_not_mem (by simp [hnone, htail])]
    rfl
  · rw [hlisted, List.append_assoc, List.cons_append]
    rcases Text.cut_cases (· == '\x7b') (u ++ '=' :: (v ++ tail)) with
      ⟨-, hcut⟩ | ⟨before, c, rest, hsplit, -, hc, hcut⟩
    · simp [dropHooks, hcut]
    · have hsign : '=' ∈ before := by
        obtain rfl := beq_iff_eq.mp hc
        rcases List.append_eq_append_iff.mp hsplit with ⟨more, rfl, hmore⟩ | ⟨more, rfl, hmore⟩
        · cases more with
          | nil => exact absurd (List.cons.inj hmore).1 (by decide)
          | cons d more =>
            obtain rfl := (List.cons.inj hmore).1
            simp
        · cases more with
          | nil => exact absurd (List.cons.inj hmore).1 (by decide)
          | cons d more =>
            obtain rfl := (List.cons.inj hmore).1
            simp at hu
      simp [dropHooks, hcut, hsign]

/-- The items are read back exactly if the default of each is one part. -/
theorem filterMap_listed {front : Text} (hfront : ∀ c ∈ front, c = ' ') {items : List Item}
    (hne : items ≠ []) (h : ∀ item ∈ items, item.Written) :
    (Code.splitTopLevel ',' (front ++ listed items ++ ending (front ++ listed items))).filterMap
        readItem? = items ↔ ∀ item ∈ items, item.IsOnePart := by
  induction items generalizing front with
  | nil => exact absurd rfl hne
  | cons item rest ih =>
    rw [List.forall_mem_cons] at h
    by_cases hone : item.IsOnePart
    · have hpart := Item.isPart_text hfront h.1 hone
      have hread := Item.readItem?_text hfront h.1
      cases rest with
      | nil =>
        have hlisted : listed [item] = item.text := rfl
        have hsplit : Code.splitTopLevel ',' (front ++ item.text) = [front ++ item.text] :=
          hpart.split_eq
        rw [hlisted, ending_of_top hpart.closed, List.append_nil, hsplit]
        simp [hread, hone]
      | cons next rest =>
        have hsplit (t : Text) : Code.splitTopLevel ',' (front ++ item.text ++ ',' :: t) =
            (front ++ item.text) :: Code.splitTopLevel ',' t := by
          rw [Code.splitTopLevel, Code.splitFrom_append hpart (by decide), Code.splitFrom_top rfl]
        have hmore := @ih [' '] (by simp) (by simp) h.2
        rw [List.singleton_append] at hmore
        rw [listed_cons, ← List.append_assoc, ending_append hpart.closed, List.append_assoc,
          List.cons_append, hsplit, List.filterMap_cons_some hread, List.cons_inj_right, hmore]
        simp [hone]
    · refine iff_of_false ?_ fun hall => hone (hall item List.mem_cons_self)
      cases rest with
      | nil =>
        have hlisted : listed [item] = item.text := rfl
        rw [hlisted]
        refine Item.filterMap_ne_of_broken hfront h.1 hone (fun hnil => ?_) (fun c hc => ?_) _
        · by_contra hopen
          rw [ending, if_neg hopen] at hnil
          cases hnil
        · unfold ending at hc
          split at hc
          · cases hc
          · obtain rfl := Option.some.inj hc
            decide
      | cons next rest =>
        rw [listed_cons, ← List.append_assoc, List.append_assoc]
        refine Item.filterMap_ne_of_broken hfront h.1 hone (by simp) (fun c hc => ?_) _
        obtain rfl := Option.some.inj hc
        decide

/-- The items of a declaration are those of the list, exactly if the default of each is one
part of it. -/
theorem items_listed {items : List Item} (hne : items ≠ []) (h : ∀ item ∈ items, item.Written) :
    Property.items (listed items ++ [';']) = items ↔ ∀ item ∈ items, item.IsOnePart := by
  have hending : '\x7b' ∉ ending (listed items) := by
    unfold ending
    split <;> simp
  rw [Property.items, headD_splitTopLevel (inline_listed h), dropHooks_listed h hending]
  exact @filterMap_listed [] (by simp) items hne h

end Property

end PhpLint
