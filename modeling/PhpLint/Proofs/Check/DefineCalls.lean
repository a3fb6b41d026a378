import PhpLint.Check.Naming
import PhpLint.Proofs.Code.Marks
import PhpLint.Proofs.Code.Search
import PhpLint.Proofs.Code.Words

/-!
The constants that are defined at run time. A call of the function that defines them is
written in code, and its first argument is a literal; the rule finds the calls in the text
with its literals and counts them in the code. It takes the calls of a line, and nothing else,
exactly if whatever reads like a call in a literal stands in the first argument of a call or
behind as many calls as are opened in the code.
-/

namespace PhpLint.Check

open Code Scrubber

variable {s head name rest : Text} {c : Char}

/-- The name of the function in any case, and an opening parenthesis; blanks may stand on both
sides of the parenthesis. -/
def IsDefineHead (head : Text) : Prop :=
  ∃ w blanks more, head = w ++ (blanks ++ '(' :: more) ∧ w.map foldLetter = "define".toList ∧
    (∀ c ∈ blanks, Text.isBlank c = true) ∧ ∀ c ∈ more, Text.isBlank c = true

theorem isBlank_of_isQuote (h : isQuote c = true) : Text.isBlank c = false := by
  simp only [isQuote, Bool.or_eq_true, beq_iff_eq] at h
  rcases h with rfl | rfl <;> decide

/-- What the reader of an opening has read. -/
theorem readDefineOpen?_eq_some_iff :
    readDefineOpen? s = some ((), rest) ↔
      ∃ head q, s = head ++ q :: rest ∧ IsDefineHead head ∧ isQuote q = true := by
  constructor
  · intro h
    simp only [readDefineOpen?, Option.bind_eq_bind, Option.bind_eq_some_iff] at h
    obtain ⟨⟨w, t⟩, hkeyword, v, hparen, hquote⟩ := h
    obtain ⟨rfl, hw⟩ := keyword?_eq_some_iff.mp hkeyword
    obtain ⟨blanks, ht, hblanks⟩ := Text.exists_blanks t
    obtain ⟨more, hv, hmore⟩ := Text.exists_blanks v
    rw [Text.strip?_eq_some_iff.mp hparen] at ht
    cases hstart : Text.trimStart v with
    | nil => simp [hstart] at hquote
    | cons q r =>
      simp only [hstart, Option.ite_none_right_eq_some, Option.some.injEq, Prod.mk.injEq,
        true_and] at hquote
      obtain ⟨hq, rfl⟩ := hquote
      rw [hstart] at hv
      exact ⟨w ++ (blanks ++ '(' :: more), q, by simp [ht, hv],
        ⟨w, blanks, more, rfl, hw, hblanks, hmore⟩, hq⟩
  · rintro ⟨head, q, rfl, ⟨w, blanks, more, rfl, hw, hblanks, hmore⟩, hq⟩
    have htext : w ++ (blanks ++ '(' :: more) ++ q :: rest =
        w ++ (blanks ++ '(' :: (more ++ q :: rest)) := by simp
    rw [htext, readDefineOpen?, keyword?_eq_some_iff.mpr ⟨rfl, hw⟩]
    simp only [Option.bind_eq_bind, Option.bind_some, Text.trimStart_append_char hblanks
      (show Text.isBlank '(' = false by decide), Text.strip?_eq_some_iff.mpr (show
      '(' :: (more ++ q :: rest) = ['('] ++ (more ++ q :: rest) from rfl),
      Text.trimStart_append_char hmore (isBlank_of_isQuote hq), hq, if_true]

/-- A text starts like a call up to the end of a first argument with text; the rest follows. -/
def StartsCall (name rest s : Text) : Prop :=
  ∃ head q q', s = head ++ q :: (name ++ q' :: rest) ∧ IsDefineHead head ∧ isQuote q = true ∧
    isQuote q' = true ∧ name ≠ [] ∧ ∀ c ∈ name, isQuote c = false

/-- What the reader of a call has read. -/
theorem readDefine?_eq_some_iff : readDefine? s = some (name, rest) ↔ StartsCall name rest s := by
  constructor
  · intro h
    simp only [readDefine?, Option.bind_eq_bind, Option.bind_eq_some_iff] at h
    obtain ⟨⟨⟨⟩, t⟩, hopen, hname⟩ := h
    obtain ⟨head, q, rfl, hhead, hq⟩ := readDefineOpen?_eq_some_iff.mp hopen
    rcases Text.cut_cases isQuote t with ⟨-, hcut⟩ | ⟨before, q', more, rfl, hbefore, hq', hcut⟩
    · cases t <;> simp [hcut] at hname
    · rw [hcut] at hname
      cases before with
      | nil => cases hname
      | cons c before =>
        obtain ⟨rfl, rfl⟩ := Prod.mk.inj (Option.some.inj hname)
        exact ⟨head, q, q', rfl, hhead, hq, hq', by simp, hbefore⟩
  · rintro ⟨head, q, q', rfl, hhead, hq, hq', hne, hname⟩
    rw [readDefine?, readDefineOpen?_eq_some_iff.mpr ⟨head, q, rfl, hhead, hq⟩]
    simp only [Option.bind_eq_bind, Option.bind_some, Text.cut_split hname hq']

section Head

/-- A match can only start at the first letter of a head. -/
theorem foldLetter_of_readDefineOpen? (h : readDefineOpen? (c :: s) = some ((), rest)) :
    foldLetter c = 'd' := by
  obtain ⟨head, q, hs, ⟨w, blanks, more, rfl, hw, -⟩, -⟩ := readDefineOpen?_eq_some_iff.mp h
  cases w with
  | nil => cases hw
  | cons d w =>
    obtain ⟨rfl, -⟩ := List.cons.inj hs
    exact (List.cons.inj hw).1

theorem foldLetter_of_startsCall (h : StartsCall name rest (c :: s)) : foldLetter c = 'd' := by
  obtain ⟨head, q, q', hs, hhead, hq, -⟩ := h
  exact foldLetter_of_readDefineOpen? (readDefineOpen?_eq_some_iff.mpr ⟨head, q, hs, hhead, hq⟩)

theorem isWord_of_foldLetter_eq (h : foldLetter c = 'd') : Text.isWord c = true :=
  isWord_of_foldLetter (by rw [h]; decide)

/-- Of a head, only the first character is one at which a match can start. -/
theorem IsDefineHead.tail (h : IsDefineHead (c :: head)) :
    ∀ d ∈ head, foldLetter d ≠ 'd' := by
  obtain ⟨w, blanks, more, hsplit, hw, hblanks, hmore⟩ := h
  cases w with
  | nil => cases hw
  | cons k w =>
    obtain ⟨rfl, rfl⟩ := List.cons.inj hsplit
    have hletters : w.map foldLetter = "efine".toList := (List.cons.inj hw).2
    have hblank {d : Char} (hd : Text.isBlank d = true) : foldLetter d ≠ 'd' := by
      intro hfold
      rw [Text.isBlank_of_isWord (isWord_of_foldLetter_eq hfold)] at hd
      cases hd
    intro d hd
    rcases List.mem_append.mp hd with hd | hd
    · intro hfold
      have hmem : 'd' ∈ "efine".toList := hletters ▸ hfold ▸ List.mem_map_of_mem hd
      exact absurd hmem (by decide)
    · rcases List.mem_append.mp hd with hd | hd
      · exact hblank (hblanks d hd)
      · rcases List.mem_cons.mp hd with rfl | hd
        · decide
        · exact hblank (hmore d hd)

/-- A head has neither quotes nor angle brackets. -/
theorem IsDefineHead.plain (h : IsDefineHead head) : ∀ c ∈ head, c ∉ ['<', '\'', '"', '`'] := by
  obtain ⟨w, blanks, more, rfl, hw, hblanks, hmore⟩ := h
  intro c hc
  rcases List.mem_append.mp hc with hc | hc
  · have hfold : foldLetter c ∈ "define".toList := hw ▸ List.mem_map_of_mem hc
    have hword : Text.isWord c = true := by
      refine isWord_of_foldLetter ?_
      have hall : ∀ d ∈ "define".toList, Text.isIdentPart d = true := List.all_eq_true.mp rfl
      exact hall _ hfold
    exact Text.not_mem_of_class hword (by decide)
  · rcases List.mem_append.mp hc with hc | hc
    · exact Text.not_mem_of_class (hblanks c hc) (by decide)
    · rcases List.mem_cons.mp hc with rfl | hc
      · decide
      · exact Text.not_mem_of_class (hmore c hc) (by decide)

theorem IsDefineHead.ne_nil (h : IsDefineHead head) : head ≠ [] := by
  rintro rfl
  obtain ⟨w, blanks, more, hsplit, -⟩ := h
  simp at hsplit

end Head

section Marked

variable {mode m : ScrubMode} {marks back : MarkedText} {code t : Text} {q : Char}

/-- A call on a line: the name of the function and the parenthesis are code, and so is the
quote behind them; the name is the text of the first argument up to a quote, and it is the
whole argument if that quote closes the literal. -/
def DefineCall (marks : MarkedText) (name : Text) (whole : Bool) : Prop :=
  ∃ front head q q' back, marks = front ++ (head.map (·, false) ++
      (q, false) :: (name.map (·, true) ++ (q', !whole) :: back)) ∧
    (∀ d ∈ front.getLast?, Text.isWord d.1 = false) ∧ IsDefineHead head ∧ isQuote q = true ∧
    isQuote q' = true ∧ name ≠ [] ∧ ∀ c ∈ name, isQuote c = false

theorem not_mem_quotes_of_foldLetter (h : foldLetter c = 'd') : c ∉ ['\'', '"', '`'] :=
  Text.not_mem_of_class (isWord_of_foldLetter_eq h) (by decide)

/-- Inside a string, a text without quotes stays inside of it. -/
theorem of_quoted (hq : isQuote q = true) (hname : ∀ c ∈ name, isQuote c = false)
    (h : HasCode (.literal q) marks code m) (htext : marks.map Prod.fst = name ++ t) :
    ∃ rest, marks = name.map (·, true) ++ rest ∧ rest.map Prod.fst = t := by
  induction name generalizing marks code with
  | nil => exact ⟨marks, rfl, htext⟩
  | cons c name ih =>
    rw [List.forall_mem_cons] at hname
    cases h with
    | nil => cases htext
    | closes _ _ =>
      obtain ⟨rfl, -⟩ := List.cons.inj htext
      rw [hname.1] at hq
      cases hq
    | inside _ _ h =>
      obtain ⟨rfl, hmore⟩ := List.cons.inj htext
      obtain ⟨rest, rfl, hrest⟩ := ih hname.2 h hmore
      exact ⟨rest, rfl, hrest⟩

/-- Where a call starts in code, it is code up to the quote, and a literal behind it. -/
theorem of_startsCall (hc : foldLetter c = 'd') (h : HasCode mode ((c, false) :: back) code m)
    (hcall : StartsCall name rest (c :: back.map Prod.fst)) :
    ∃ head q q' b after shown, (c, false) :: back = head.map (·, false) ++
        (q, false) :: (name.map (·, true) ++ (q', b) :: after) ∧ after.map Prod.fst = rest ∧
      IsDefineHead head ∧ isQuote q = true ∧ isQuote q' = true ∧ name ≠ [] ∧
      (∀ c ∈ name, isQuote c = false) ∧ code = head ++ q :: shown := by
  obtain ⟨head, q, q', hs, hhead, hq, hq', hne, hname⟩ := hcall
  obtain ⟨rfl, -⟩ := h.of_char (not_mem_quotes_of_foldLetter hc)
  obtain ⟨behind, shown, hback, rfl, hbehind, h⟩ := h.of_run hhead.plain hs
  have hquote : q ∈ ['\'', '"', '`'] := by
    simp only [isQuote, Bool.or_eq_true, beq_iff_eq] at hq
    rcases hq with rfl | rfl <;> decide
  cases h with
  | nil => cases hbehind
  | char hc _ =>
    obtain ⟨rfl, -⟩ := List.cons.inj hbehind
    exact absurd hquote hc
  | inside hmode _ _ => exact absurd rfl hmode
  | heredoc _ =>
    obtain ⟨rfl, -⟩ := List.cons.inj hbehind
    cases hq
  | opens _ h =>
    obtain ⟨rfl, hmore⟩ := List.cons.inj hbehind
    obtain ⟨after, rfl, hafter⟩ := of_quoted hq hname h hmore
    cases after with
    | nil => cases hafter
    | cons d after =>
      obtain ⟨rfl, rfl⟩ := List.cons.inj hafter
      exact ⟨head, _, _, d.2, after, _, hback, rfl, hhead, hq, hq', hne, hname, rfl⟩

/-- The last character of a marked text. -/
theorem forall_getLast?_map {P : Char → Prop} {front : MarkedText} :
    (∀ c ∈ (front.map Prod.fst).getLast?, P c) ↔ ∀ d ∈ front.getLast?, P d.1 := by
  rw [List.getLast?_map]
  cases front.getLast? <;> simp

theorem foldLetter_ne_of_isQuote (h : isQuote q = true) : foldLetter q ≠ 'd' := by
  simp only [isQuote, Bool.or_eq_true, beq_iff_eq] at h
  rcases h with rfl | rfl <;> decide

/-- Where a text that ends in a given character is entered, the rest begins with a character
of it. -/
theorem exists_entered {front x y : Text} (h : front ++ q :: rest = x ++ y)
    (hlength : rest.length < y.length) :
    ∃ d more, y = d :: more ∧ (d = q ∨ d ∈ front) := by
  rcases List.append_eq_append_iff.mp h with ⟨between, rfl, hy⟩ | ⟨between, rfl, rfl⟩
  · cases between with
    | nil => exact ⟨q, rest, hy.symm, .inl rfl⟩
    | cons d between =>
      have hcount := congrArg List.length hy
      simp only [List.cons_append, List.length_cons, List.length_append] at hcount
      omega
  · cases between with
    | nil => exact ⟨q, rest, rfl, .inl rfl⟩
    | cons d between => exact ⟨d, between ++ q :: rest, rfl, .inr (by simp)⟩

theorem separate_readDefineOpen? (previous : Option Char) (s : Text) :
    Separate readDefineOpen? previous s := by
  rintro u c v ⟨⟩ rest - hmatch x y hv hlength
  obtain ⟨head, q, hs, hhead, hq⟩ :=
    readDefineOpen?_eq_some_iff.mp (matchAt_eq_some_iff.mp hmatch).2
  cases head with
  | nil => exact absurd rfl hhead.ne_nil
  | cons k head =>
    obtain ⟨rfl, rfl⟩ := List.cons.inj hs
    obtain ⟨d, more, rfl, hd⟩ := exists_entered hv hlength
    rw [Option.eq_none_iff_forall_ne_some]
    rintro ⟨⟨⟩, left⟩ hfound
    have hfold := foldLetter_of_readDefineOpen? (matchAt_eq_some_iff.mp hfound).2
    rcases hd with rfl | hd
    · exact foldLetter_ne_of_isQuote hq hfold
    · exact hhead.tail d hd hfold

/-- What the rule reads as calls at the places of a marked text, at those inside literals or at
those in code. -/
def definesFrom (literal : Bool) (previous : Option Char) : MarkedText → List (Match Text)
  | [] => []
  | (c, hidden) :: marks =>
    (if hidden = literal then
      (matchAt (located readDefine?) previous (c :: marks.map Prod.fst)).map Prod.fst
    else none).toList ++ definesFrom literal (some c) marks

/-- The calls of a line. -/
def defineCalls (marks : MarkedText) : List (Match Text) := definesFrom false none marks

/-- What reads like a call on a line and starts inside a literal. -/
def lookAlikes (marks : MarkedText) : List (Match Text) := definesFrom true none marks

/-- What the rule takes for the calls of a line: the first matches in the text, as many as
calls are opened in the code. -/
def takenDefines (marks : MarkedText) (code : Text) : List (Match Text) :=
  (findAllWords (located readDefine?) (marks.map Prod.fst)).take
    (findAllWords readDefineOpen? code).length

/-- A look-alike is in the way: it stands outside the first arguments of the calls, and not
all that is opened in the code is a call in front of it. -/
def Misleads (marks : MarkedText) (code : Text) : Prop :=
  ∃ k ∈ lookAlikes marks, (∀ call ∈ defineCalls marks, ¬ k.Inside call) ∧
    ((defineCalls marks).filter (k.start < ·.start)).length <
      (findAllWords readDefineOpen? code).length

instance (marks : MarkedText) (code : Text) : Decidable (Misleads marks code) :=
  inferInstanceAs (Decidable (∃ k ∈ lookAlikes marks, _))

theorem consumes_readDefine? (s name rest : Text) (h : readDefine? s = some (name, rest)) :
    rest.length < s.length := by
  obtain ⟨head, q, q', rfl, -⟩ := readDefine?_eq_some_iff.mp h
  simp only [List.length_append, List.length_cons]
  omega

theorem foldLetter_of_matchAt {previous : Option Char} {k : Match Text}
    (h : matchAt (located readDefine?) previous (c :: s) = some (k, rest)) :
    foldLetter c = 'd' := by
  obtain ⟨hmatch, -⟩ := matchAt_located_eq_some_iff.mp h
  exact foldLetter_of_startsCall (readDefine?_eq_some_iff.mp (matchAt_eq_some_iff.mp hmatch).2)

theorem definesFrom_cons_of_none {literal hidden : Bool} {previous : Option Char}
    (h : hidden = literal →
      matchAt (located readDefine?) previous (c :: marks.map Prod.fst) = none) :
    definesFrom literal previous ((c, hidden) :: marks) = definesFrom literal (some c) marks := by
  rw [definesFrom]
  split
  · rename_i hkind
    rw [h hkind]
    rfl
  · rfl

theorem mem_definesFrom {literal : Bool} {previous : Option Char} {k : Match Text} :
    k ∈ definesFrom literal previous marks ↔
      ∃ front c back rest, marks = front ++ (c, literal) :: back ∧
        matchAt (located readDefine?) ((front.map Prod.fst).getLast?.or previous)
          (c :: back.map Prod.fst) = some (k, rest) := by
  induction marks generalizing previous with
  | nil => simp [definesFrom]
  | cons d marks ih =>
    obtain ⟨c, hidden⟩ := d
    rw [definesFrom, List.mem_append, ih]
    constructor
    · rintro (hhere | ⟨front, e, back, rest, rfl, hmatch⟩)
      · by_cases hkind : hidden = literal
        · rw [if_pos hkind, Option.mem_toList, Option.map_eq_some_iff] at hhere
          obtain ⟨⟨_, rest⟩, hmatch, rfl⟩ := hhere
          exact ⟨[], c, marks, rest, by rw [hkind]; rfl, hmatch⟩
        · rw [if_neg hkind] at hhere
          cases hhere
      · refine ⟨(c, hidden) :: front, e, back, rest, rfl, ?_⟩
        rwa [List.map_cons, getLast?_or_cons]
    · rintro ⟨front, e, back, rest, hsplit, hmatch⟩
      cases front with
      | nil =>
        obtain ⟨hd, rfl⟩ := List.cons.inj hsplit
        obtain ⟨rfl, rfl⟩ := Prod.mk.inj hd
        left
        rw [if_pos rfl, Option.mem_toList, Option.map_eq_some_iff]
        exact ⟨_, hmatch, rfl⟩
      | cons f front =>
        obtain ⟨rfl, rfl⟩ := List.cons.inj hsplit
        rw [List.map_cons, getLast?_or_cons] at hmatch
        exact .inr ⟨front, e, back, rest, rfl, hmatch⟩

/-- What reads like a call on a line begins a word there, inside a literal or in code. -/
theorem mem_definesFrom_iff {literal : Bool} {k : Match Text} :
    k ∈ definesFrom literal none marks ↔
      ∃ front c back rest, marks = front ++ (c, literal) :: back ∧
        (∀ d ∈ front.getLast?, Text.isWord d.1 = false) ∧
        StartsCall k.found rest (c :: back.map Prod.fst) ∧
        k.start = back.length + 1 ∧ k.stop = rest.length := by
  rw [mem_definesFrom]
  simp only [Option.or_none, matchAt_eq_some_iff, forall_getLast?_map, located_eq_some_iff,
    readDefine?_eq_some_iff, List.length_cons, List.length_map]

/-- What is read at a place starts in code or inside a literal. -/
theorem mem_matchesFrom_iff_kind {previous : Option Char} {k : Match Text} :
    k ∈ matchesFrom (located readDefine?) previous (marks.map Prod.fst) ↔
      k ∈ definesFrom false previous marks ∨ k ∈ definesFrom true previous marks := by
  induction marks generalizing previous with
  | nil => simp [matchesFrom, definesFrom]
  | cons d marks ih =>
    obtain ⟨c, hidden⟩ := d
    rw [List.map_cons, matchesFrom, definesFrom, definesFrom, List.mem_append, List.mem_append,
      List.mem_append, ih]
    cases hidden with
    | false => simp [or_assoc]
    | true => simp [or_left_comm]

theorem start_le_of_mem_definesFrom {literal : Bool} {previous : Option Char} {k : Match Text}
    (h : k ∈ definesFrom literal previous marks) : k.start ≤ marks.length := by
  have hmem : k ∈ matchesFrom (located readDefine?) previous (marks.map Prod.fst) := by
    rw [mem_matchesFrom_iff_kind]
    cases literal with
    | false => exact .inl h
    | true => exact .inr h
  have hplace := (places_of_mem_matchesFrom consumes_readDefine? hmem).2
  rwa [List.length_map] at hplace

theorem ordered_definesFrom (literal : Bool) (previous : Option Char) (marks : MarkedText) :
    (definesFrom literal previous marks).Pairwise fun a b => b.start < a.start := by
  induction marks generalizing previous with
  | nil => exact .nil
  | cons d marks ih =>
    obtain ⟨c, hidden⟩ := d
    rw [definesFrom, List.pairwise_append]
    refine ⟨?_, ih _, fun k hk f hf => ?_⟩
    · cases h : (if hidden = literal then
        (matchAt (located readDefine?) previous (c :: marks.map Prod.fst)).map Prod.fst else none)
      · exact .nil
      · exact List.pairwise_singleton _ _
    · have hplace := start_le_of_mem_definesFrom hf
      rw [Option.mem_toList, Option.ite_none_right_eq_some,
        Option.map_eq_some_iff] at hk
      obtain ⟨-, ⟨_, rest⟩, hmatch, rfl⟩ := hk
      obtain ⟨-, hstart, -⟩ := matchAt_located_eq_some_iff.mp hmatch
      rw [hstart, List.length_cons, List.length_map]
      omega

/-- A character behind the start of one end of a text and in front of the start of a later one
stands between the two. -/
theorem mem_of_between {β : Type} {front x after front' back : List β} {a : β}
    (h : front ++ (x ++ after) = front' ++ a :: back) (hstart : back.length < (x ++ after).length)
    (hstop : after.length ≤ back.length) : a ∈ x := by
  have hget : (front ++ (x ++ after))[front'.length]? = some a := by
    rw [h]
    simp
  have hlength := congrArg List.length h
  simp only [List.length_append, List.length_cons] at hlength hstart
  rw [List.getElem?_append_right (by omega), List.getElem?_append_left (by omega)] at hget
  exact List.mem_of_getElem? hget

/-- A call of a line is code up to the quote, and a literal behind it. -/
theorem exists_call (h : HasCode mode marks code m) {k : Match Text} (hk : k ∈ defineCalls marks) :
    ∃ front head q q' b after, marks = front ++ (head.map (·, false) ++
        (q, false) :: (k.found.map (·, true) ++ (q', b) :: after)) ∧
      (∀ d ∈ front.getLast?, Text.isWord d.1 = false) ∧ IsDefineHead head ∧ isQuote q = true ∧
      isQuote q' = true ∧ k.found ≠ [] ∧ (∀ c ∈ k.found, isQuote c = false) ∧
      k.start + front.length = marks.length ∧ k.stop = after.length := by
  obtain ⟨front, c, back, rest, rfl, hword, hcall, hstart, hstop⟩ := mem_definesFrom_iff.mp hk
  obtain ⟨between, first, second, -, -, hback⟩ := h.split
  obtain ⟨head, q, q', b, after, shown, hsplit, rfl, hhead, hq, hq', hne, hname, -⟩ :=
    of_startsCall (foldLetter_of_startsCall hcall) hback hcall
  rw [List.length_map] at hstop
  refine ⟨front, head, q, q', b, after, by rw [hsplit], hword, hhead, hq, hq', hne, hname, ?_,
    hstop⟩
  rw [List.length_append, List.length_cons, hstart, Nat.add_comm]

/-- The names of the calls are the first arguments of the calls in code. -/
theorem mem_found_defineCalls (h : HasCode mode marks code m) :
    name ∈ (defineCalls marks).map Match.found ↔ ∃ whole, DefineCall marks name whole := by
  rw [List.mem_map]
  constructor
  · rintro ⟨k, hk, rfl⟩
    obtain ⟨front, head, q, q', b, after, hmarks, hword, hhead, hq, hq', hne, hname, -⟩ :=
      exists_call h hk
    exact ⟨!b, front, head, q, q', after, by simpa using hmarks, hword, hhead, hq, hq', hne, hname⟩
  · rintro ⟨whole, front, head, q, q', back, rfl, hword, hhead, hq, hq', hne, hname⟩
    cases head with
    | nil => exact absurd rfl hhead.ne_nil
    | cons c head =>
      have hplain (s : Text) (b : Bool) : (s.map (·, b)).map Prod.fst = s := by
        simp [Function.comp_def]
      refine ⟨⟨name, _, _⟩, mem_definesFrom_iff.mpr ⟨front, c, _, back.map Prod.fst, rfl, hword,
        ⟨c :: head, q, q', ?_, hhead, hq, hq', hne, hname⟩, rfl, rfl⟩, rfl⟩
      simp [hplain]

/-- No call starts inside another one. -/
theorem outside_defineCalls (h : HasCode mode marks code m) {k call : Match Text}
    (hk : k ∈ defineCalls marks) (hcall : call ∈ defineCalls marks) : ¬ k.Inside call := by
  rintro ⟨hstop, hstart⟩
  obtain ⟨front, head, q, q', b, after, hmarks, -, hhead, hq, hq', -, -, hplace, hend⟩ :=
    exists_call h hcall
  obtain ⟨before, c, back, rest, hsplit, -, hread, hfrom, -⟩ := mem_definesFrom_iff.mp hk
  have hfold := foldLetter_of_startsCall hread
  cases head with
  | nil => exact absurd rfl hhead.ne_nil
  | cons d head =>
    have hinner : (front ++ [(d, false)]) ++ ((head.map (·, false) ++ (q, false) ::
        (call.found.map (·, true) ++ [(q', b)])) ++ after) = before ++ (c, false) :: back := by
      rw [← hsplit, hmarks]
      simp
    have hlength := congrArg List.length hmarks
    have hmem := mem_of_between hinner (by
      simp only [List.length_append, List.length_cons, List.length_map] at hlength ⊢
      omega) (by omega)
    -- The letter is none of the later ones of the call, and it is not a quote.
    rcases List.mem_append.mp hmem with hmem | hmem
    · obtain ⟨e, he, heq⟩ := List.mem_map.mp hmem
      exact hhead.tail e he ((congrArg (foldLetter ∘ Prod.fst) heq).trans hfold)
    · rcases List.mem_cons.mp hmem with heq | hmem
      · exact foldLetter_ne_of_isQuote hq ((congrArg (foldLetter ∘ Prod.fst) heq).symm.trans hfold)
      · rcases List.mem_append.mp hmem with hmem | hmem
        · obtain ⟨e, -, heq⟩ := List.mem_map.mp hmem
          cases congrArg Prod.snd heq
        · have heq := List.mem_singleton.mp hmem
          exact foldLetter_ne_of_isQuote hq'
            ((congrArg (foldLetter ∘ Prod.fst) heq).symm.trans hfold)

theorem sifts_defines (h : HasCode mode marks code m) :
    Sifts (findAllWords (located readDefine?) (marks.map Prod.fst)) (defineCalls marks)
      (lookAlikes marks) where
  forward k hk := (places_of_mem_matchesFrom consumes_readDefine? (mem_findAllFrom hk).1).1
  separate := separate_findAllFrom consumes_readDefine? _ _ _
  kind k hk := mem_matchesFrom_iff_kind.mp (mem_findAllFrom hk).1
  reached k hk := by
    have hmem := mem_matchesFrom_iff_kind.mpr hk
    exact reached_of_mem_matchesFrom consumes_readDefine? hmem
      (places_of_mem_matchesFrom consumes_readDefine? hmem).2
  ordered := ordered_definesFrom _ _ _
  apart k hcall hother := by
    obtain ⟨front, c, back, rest, hsplit, -, -, hstart, -⟩ := mem_definesFrom_iff.mp hcall
    obtain ⟨front', c', back', rest', hsplit', -, -, hstart', -⟩ := mem_definesFrom_iff.mp hother
    obtain ⟨-, hback⟩ := List.append_inj' (hsplit.symm.trans hsplit') (hstart.symm.trans hstart')
    cases congrArg Prod.snd (List.cons.inj hback).1
  outside k hk call hcall := outside_defineCalls h hk hcall

/-- As many calls are opened in the code as there are calls, or more. -/
theorem length_definesFrom_le (h : HasCode mode marks code m) (inText inCode : Option Char)
    (hword : mode = .code → (∀ c ∈ inText, Text.isWord c = false) →
      ∀ c ∈ inCode, Text.isWord c = false) :
    (definesFrom false inText marks).length ≤
      (matchesFrom readDefineOpen? inCode code).length := by
  have hquote {q : Char} {previous : Option Char} (hq : q ∈ ['\'', '"', '`'])
      (marks : MarkedText) : definesFrom false previous ((q, false) :: marks) =
        definesFrom false (some q) marks := by
    refine definesFrom_cons_of_none fun _ => ?_
    rw [Option.eq_none_iff_forall_ne_some]
    rintro ⟨k, rest⟩ hmatch
    exact not_mem_quotes_of_foldLetter (foldLetter_of_matchAt hmatch) hq
  have hhidden (c : Char) (previous : Option Char) (marks : MarkedText) :
      definesFrom false previous ((c, true) :: marks) = definesFrom false (some c) marks :=
    definesFrom_cons_of_none (by simp)
  induction h generalizing inText inCode with
  | nil => simp [definesFrom]
  | @char m c marks code hc h ih =>
    have hrest := ih (some c) (some c) fun _ h => h
    rw [definesFrom, if_pos rfl, matchesFrom, List.length_append, List.length_append]
    refine Nat.add_le_add ?_ hrest
    cases hmatch : matchAt (located readDefine?) inText (c :: marks.map Prod.fst) with
    | none => simp
    | some found =>
      obtain ⟨hmatch, -⟩ := matchAt_located_eq_some_iff.mp hmatch
      obtain ⟨hstart, hread⟩ := matchAt_eq_some_iff.mp hmatch
      have hcall := readDefine?_eq_some_iff.mp hread
      obtain ⟨head, q, q', b, after, shown, -, -, hhead, hq, -, -, -, hcode⟩ :=
        of_startsCall (foldLetter_of_startsCall hcall) (.char hc h) hcall
      have hopen : matchAt readDefineOpen? inCode (c :: code) = some ((), shown) :=
        matchAt_eq_some_iff.mpr
          ⟨hword rfl hstart, readDefineOpen?_eq_some_iff.mpr ⟨head, q, hcode, hhead, hq⟩⟩
      simp [hopen]
  | @opens m q marks code hq h ih =>
    rw [hquote hq]
    exact (ih _ _ fun h => by cases h).trans (length_matchesFrom_le _ _ q code)
  | @closes m q marks code hq h ih =>
    rw [hquote hq]
    exact (ih _ _ fun _ h => h).trans (length_matchesFrom_le _ _ q code)
  | @inside mode m c shown marks code hmode hshown h ih =>
    rw [hhidden]
    rcases hshown with rfl | ⟨rfl, -⟩
    · exact ih _ _ fun h => absurd h hmode
    · exact (ih _ _ fun h => absurd h hmode).trans (length_matchesFrom_le _ _ c code)
  | @heredoc m label marks code h ih =>
    rw [hhidden]
    exact ((ih _ _ fun h => by cases h).trans (length_matchesFrom_le _ _ '"' code)).trans
      (length_matchesFrom_le _ _ '"' _)
  | @label m label c marks code hc hend h ih =>
    rw [hhidden]
    have hplain : ∀ d ∈ some '"', Text.isWord d = false := by
      rintro d ⟨⟩
      rfl
    exact ((ih _ _ fun _ _ => hplain).trans (length_matchesFrom_le _ _ '"' code)).trans
      (length_matchesFrom_le _ _ '"' _)

/-- The rule takes the calls of a line, and nothing else, exactly if no look-alike is in the
way. -/
theorem takenDefines_eq_iff (h : HasCode mode marks code m) :
    takenDefines marks code = defineCalls marks ↔ ¬ Misleads marks code := by
  have hcount := length_definesFrom_le h none none fun _ h => h
  rw [← findAllWords_eq_matchesFrom (separate_readDefineOpen? none code)] at hcount
  rw [takenDefines, (sifts_defines h).take_eq_iff hcount]
  simp [Misleads, Sifts.Harmless, or_iff_not_imp_left]

theorem map_found_takenDefines (marks : MarkedText) (code : Text) :
    (takenDefines marks code).map Match.found =
      (findAllWords readDefine? (marks.map Prod.fst)).take
        (findAllWords readDefineOpen? code).length := by
  rw [takenDefines, List.map_take, map_found_findAllWords]

end Marked

section File

variable {ctx : FileContext} {n : Nat} {code text : Text} {issue : Issue}

theorem line_of_constantNameIssue? {line : Nat}
    (h : constantNameIssue? ctx line name = some issue) :
    issue.line = line := by
  simp only [constantNameIssue?, Option.ite_none_left_eq_some, Option.some.injEq] at h
  obtain ⟨-, rfl⟩ := h
  rfl

/-- What is reported on a line is reported of the constants of that line. -/
theorem mem_constantNaming_iff (hcode : (codeLines ctx.lines)[n]? = some code)
    (htext : (commentFreeLines ctx.lines)[n]? = some text) :
    issue ∈ constantNaming ctx ∧ issue.line = n + 1 ↔
      ∃ name ∈ constantNames code text, constantNameIssue? ctx (n + 1) name = some issue := by
  have hentry {entry : Text × Text} : (entry, n + 1) ∈
      ((codeLines ctx.lines).zip (commentFreeLines ctx.lines)).zipIdx 1 ↔ entry = (code, text) := by
    have hzip : ((codeLines ctx.lines).zip (commentFreeLines ctx.lines))[n]? = some (code, text) :=
      List.getElem?_zip_eq_some.mpr ⟨hcode, htext⟩
    rw [List.mk_mem_zipIdx_iff_le_and_getElem?_sub, Nat.add_sub_cancel, hzip, Option.some.injEq,
      eq_comm]
    simp
  simp only [constantNaming, List.mem_flatMap, List.mem_filterMap]
  constructor
  · rintro ⟨⟨⟨entry, line⟩, hline, name, hname, hissue⟩, hn⟩
    obtain rfl : line = n + 1 := (line_of_constantNameIssue? hissue).symm.trans hn
    obtain rfl := hentry.mp hline
    exact ⟨name, hname, hissue⟩
  · rintro ⟨name, hname, hissue⟩
    exact ⟨⟨_, hentry.mpr rfl, name, hname, hissue⟩, line_of_constantNameIssue? hissue⟩

/-- The constants of a line are those behind the keyword and those that the rule takes from
what reads like a call, a name with a backslash left out; the issues of the line are those of
these names. What it takes are the calls of the line exactly if no look-alike is in the way. The
name of a call is its first argument, up to a quote of the other kind if one stands in it, and
an empty argument or one that the line does not close is none. -/
theorem define_calls_reported (ctx : FileContext) (n : Nat) (marks : MarkedText)
    (hmarks : (markedLines ctx.lines)[n]? = some marks) :
    ∃ code defined, (codeLines ctx.lines)[n]? = some code ∧
      (commentFreeLines ctx.lines)[n]? = some (marks.map Prod.fst) ∧
      constantNames code (marks.map Prod.fst) = findAllWords readConst? code ++ defined ∧
      (∀ name, name ∈ defined ↔
        '\\' ∉ name ∧ ∃ k ∈ takenDefines marks code, k.found = name) ∧
      (takenDefines marks code = defineCalls marks ↔ ¬ Misleads marks code) ∧
      (¬ Misleads marks code →
        ∀ name, name ∈ defined ↔ '\\' ∉ name ∧ ∃ whole, DefineCall marks name whole) ∧
      ∀ issue, issue ∈ constantNaming ctx ∧ issue.line = n + 1 ↔
        ∃ name ∈ findAllWords readConst? code ++ defined,
          constantNameIssue? ctx (n + 1) name = some issue := by
  obtain ⟨mode, m, code, hcode, htext, hread⟩ := exists_hasCode hmarks
  have htaken (name : Text) : name ∈ ((findAllWords readDefine? (marks.map Prod.fst)).take
      (findAllWords readDefineOpen? code).length).filter (fun name => !name.contains '\\') ↔
        '\\' ∉ name ∧ name ∈ (takenDefines marks code).map Match.found := by
    rw [List.mem_filter, map_found_takenDefines]
    simp [and_comm]
  refine ⟨code, _, hcode, htext, rfl, fun name => ?_, takenDefines_eq_iff hread,
    fun hclear name => ?_, fun issue => mem_constantNaming_iff hcode htext⟩
  · rw [htaken, List.mem_map]
  · rw [htaken, (takenDefines_eq_iff hread).mpr hclear, mem_found_defineCalls hread]

-- A literal does no harm on a line on which nothing is defined.
example : ¬ Misleads (mark .code "$doc = \"define('lowerName', 1)\";".toList)
    "$doc = \"\";".toList := by
  decide +kernel

theorem isDefineHead_define : IsDefineHead "define(".toList :=
  ⟨"define".toList, [], [], rfl, by decide, by simp, by simp⟩

/-- A call in front of a literal that reads like one. -/
def definingFile : FileContext :=
  { path := Path.ofString "/r/a.php"
    lines := ["define('maxSize', \"see define('minSize', 1)\");".toList]
    relativePath := Path.ofString "a.php" }

theorem define_calls_reported_single :
    ∃ marks, (markedLines definingFile.lines)[0]? = some marks ∧
      (lookAlikes marks).map Match.found = ["minSize".toList] ∧
      DefineCall marks "maxSize".toList true ∧
      ∃ code defined, (codeLines definingFile.lines)[0]? = some code ∧ ¬ Misleads marks code ∧
        takenDefines marks code = defineCalls marks ∧
        constantNames code (marks.map Prod.fst) = findAllWords readConst? code ++ defined ∧
        "maxSize".toList ∈ defined ∧
        ∀ name, name ∈ defined ↔ '\\' ∉ name ∧ ∃ whole, DefineCall marks name whole := by
  let marks := mark .code "define('maxSize', \"see define('minSize', 1)\");".toList
  have hcall : DefineCall marks "maxSize".toList true :=
    ⟨[], "define(".toList, '\'', '\'', marks.drop 16, by decide +kernel, by simp,
      isDefineHead_define, rfl, rfl, by simp, by simp [isQuote]⟩
  obtain ⟨code, defined, hcode, -, hnames, -, htaken, hdefined, -⟩ :=
    define_calls_reported definingFile 0 marks rfl
  have hshown : (codeLines definingFile.lines)[0]? = some "define('', \"\");".toList := by
    decide +kernel
  obtain rfl := Option.some.inj (hcode.symm.trans hshown)
  have hclear : ¬ Misleads marks "define('', \"\");".toList := by decide +kernel
  exact ⟨marks, rfl, by decide +kernel, hcall, _, defined, hshown, hclear, htaken.mpr hclear,
    hnames, (hdefined hclear _).mpr ⟨by decide, true, hcall⟩, hdefined hclear⟩

/-- A literal with a look-alike in front of a call. -/
def misleadingFile : FileContext :=
  { path := Path.ofString "/r/a.php"
    lines := ["$doc = \"define('lowerName', 1)\"; define('upperName', 2);".toList]
    relativePath := Path.ofString "a.php" }

/-- The name in the literal is reported, and the one that is defined is not. -/
theorem define_of_look_alike :
    (∃ marks, (markedLines misleadingFile.lines)[0]? = some marks ∧
        DefineCall marks "upperName".toList true ∧
        ∀ whole, ¬ DefineCall marks "lowerName".toList whole) ∧
      constantNaming misleadingFile =
        (constantNameIssue? misleadingFile 1 "lowerName".toList).toList ∧
      constantNameIssue? misleadingFile 1 "upperName".toList ≠ none := by
  let marks := mark .code "$doc = \"define('lowerName', 1)\"; define('upperName', 2);".toList
  have hcall : DefineCall marks "upperName".toList true := by
    refine ⟨marks.take 33, "define(".toList, '\'', '\'', marks.drop 51, by decide +kernel,
      by decide +kernel, isDefineHead_define, rfl, rfl, by simp, by simp [isQuote]⟩
  have hnone (whole : Bool) : ¬ DefineCall marks "lowerName".toList whole := by
    rintro ⟨front, head, q, q', back, hsplit, -, -, hq, -⟩
    have hheld : (q, false) :: "lowerName".toList.map (·, true) <:+: marks :=
      ⟨front ++ head.map (·, false), (q', !whole) :: back, by rw [hsplit]; simp⟩
    simp only [isQuote, Bool.or_eq_true, beq_iff_eq] at hq
    rcases hq with rfl | rfl
    all_goals exact absurd hheld (by decide +kernel)
  exact ⟨⟨marks, rfl, hcall, hnone⟩, by decide +kernel, by decide +kernel⟩

end File

end PhpLint.Check
