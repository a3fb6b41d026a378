import Mathlib.Data.List.Induction
import Mathlib.Order.Nat
import PhpLint.Proofs.Checked.Declaration
import PhpLint.Proofs.Code.Enclosed
import PhpLint.Proofs.Text.Offset

/-!
The partner of a parenthesis. Outside quotes, a text has a surplus of opening over closing
parentheses. The partner of a parenthesis is the first character behind it up to which the text
from the parenthesis on has no surplus, and the search finds it wherever there is one. What
carries the search is that the depth it keeps is that surplus: it moves by one at a time, so as
long as it has not been zero it is positive, and a closing parenthesis may be taken off it.
-/

namespace PhpLint.Code

open Text (byteLength)

/-- What of a text stands outside quotes, behind a place where the given quote is open or none
is. In a quoted stretch a backslash takes the next character with it. -/
def unquoted : Option Char → Text → Text
  | _, [] => []
  | some q, '\\' :: _ :: s => unquoted (some q) s
  | some q, c :: s => unquoted (if c = q then none else some q) s
  | none, c :: s => if c = '\'' ∨ c = '"' then unquoted (some c) s else c :: unquoted none s

/-- Opening minus closing parentheses outside quotes. -/
def surplus (s : Text) : Int := (unquoted none s).count '(' - (unquoted none s).count ')'

/-- The surplus that a text has from one byte offset through the character at another. There
is none if no character starts at one of the two. -/
def surplusAt? (s : Text) (start stop : Nat) : Option Int := do
  let front ← Text.slice? s start stop
  let rest ← dropBytes? stop s
  let c ← rest.head?
  return surplus (front ++ [c])

/-- A parenthesis is opened at one byte offset, and behind it the first character up to which
none is open is at the other. -/
structure IsPartner (s : Text) (opening closing : Nat) : Prop where
  opens : (Text.utf8 s)[opening]? = some '('.toUInt8
  first : IsLeast {n | opening < n ∧ surplusAt? s opening n = some 0} closing

/-- Outside quotes, the parentheses of a text are matched by one another. -/
structure Balanced (s : Text) : Prop where
  never_below : ∀ p, p <+: s → 0 ≤ surplus p
  settled : surplus s = 0

/-! ## Reading on from a state of the quotes -/

/-- What of a text stands outside quotes if it is read on from a state of the quotes. -/
def unquotedFrom : QuoteState → Text → Text
  | .outside, s => unquoted none s
  | .inside q, s => unquoted (some q) s
  | .escaped q, s => unquoted (some q) s.tail

def surplusFrom (quotes : QuoteState) (s : Text) : Int :=
  (unquotedFrom quotes s).count '(' - (unquotedFrom quotes s).count ')'

/-- What one character adds to the surplus. -/
def turn (quotes : QuoteState) (c : Char) : Int :=
  if quotes ≠ .outside then 0 else if c = '(' then 1 else if c = ')' then -1 else 0

variable {depth offset close n : Nat} {quotes : QuoteState} {c : Char}
variable {s t p inner rest before after : Text}

theorem unquotedFrom_cons (quotes : QuoteState) (c : Char) (s : Text) :
    unquotedFrom quotes (c :: s) =
      (if quotes = .outside ∧ c ≠ '\'' ∧ c ≠ '"' then [c] else []) ++
        unquotedFrom (quotes.step c) s := by
  cases quotes with
  | outside =>
    by_cases hc : c = '\'' ∨ c = '"'
    · rw [QuoteState.step, if_pos hc, if_neg (by tauto), unquotedFrom, unquoted, if_pos hc]
      rfl
    · rw [QuoteState.step, if_neg hc, if_pos (by tauto), unquotedFrom, unquoted, if_neg hc]
      rfl
  | inside q =>
    by_cases hc : c = '\\'
    · subst hc
      cases s <;> simp [unquotedFrom, unquoted, QuoteState.step]
    · rw [QuoteState.step, if_neg hc, unquotedFrom, unquoted]
      · split <;> simp [unquotedFrom]
      · intro d more hc'
        exact absurd hc' hc
  | escaped q => rfl

@[simp] theorem surplusFrom_nil (quotes : QuoteState) : surplusFrom quotes [] = 0 := by
  cases quotes <;> rfl

theorem surplusFrom_cons (quotes : QuoteState) (c : Char) (s : Text) :
    surplusFrom quotes (c :: s) = turn quotes c + surplusFrom (quotes.step c) s := by
  have hfirst : ((if quotes = .outside ∧ c ≠ '\'' ∧ c ≠ '"' then [c] else []).count '(' : Int) -
      (if quotes = .outside ∧ c ≠ '\'' ∧ c ≠ '"' then [c] else []).count ')' = turn quotes c := by
    unfold turn
    by_cases hquotes : quotes = .outside
    · by_cases hopen : c = '('
      · simp [hquotes, hopen]
      · by_cases hclose : c = ')'
        · simp [hquotes, hclose]
        · split <;> simp [hquotes, hopen, hclose]
    · simp [hquotes]
  rw [surplusFrom, surplusFrom, unquotedFrom_cons, List.count_append, List.count_append, ← hfirst]
  omega

theorem surplusFrom_append (quotes : QuoteState) (s t : Text) :
    surplusFrom quotes (s ++ t) =
      surplusFrom quotes s + surplusFrom (s.foldl QuoteState.step quotes) t := by
  induction s generalizing quotes with
  | nil => simp
  | cons c s ih =>
    rw [List.cons_append, surplusFrom_cons, surplusFrom_cons, ih, List.foldl_cons]
    omega

theorem neg_one_le_turn (quotes : QuoteState) (c : Char) : -1 ≤ turn quotes c := by
  unfold turn
  split
  · omega
  · split
    · omega
    · split <;> omega

/-- The depth that the search keeps is the surplus. -/
theorem cast_openParens (quotes : QuoteState) (c : Char) (hdepth : 1 ≤ depth) :
    (openParens depth quotes c : Int) = depth + turn quotes c := by
  unfold openParens turn
  split
  · omega
  · split
    · omega
    · split <;> omega

@[simp] theorem surplusFrom_singleton (quotes : QuoteState) (c : Char) :
    surplusFrom quotes [c] = turn quotes c := by
  rw [surplusFrom_cons, surplusFrom_nil, Int.add_zero]

/-- A surplus that has not been zero has been positive throughout. -/
theorem surplus_pos (hdepth : 1 ≤ depth)
    (h : ∀ q, q <+: p → depth + surplusFrom quotes q ≠ 0) : 0 < depth + surplusFrom quotes p := by
  induction p generalizing depth quotes with
  | nil =>
    rw [surplusFrom_nil]
    omega
  | cons c p ih =>
    have hcast := cast_openParens quotes c hdepth
    have hturn := neg_one_le_turn quotes c
    have hfirst : depth + turn quotes c ≠ 0 := by
      simpa using h [c] (List.prefix_append [c] p)
    have hrest : ∀ q, q <+: p →
        (openParens depth quotes c : Int) + surplusFrom (quotes.step c) q ≠ 0 := by
      intro q hq
      have hcons := h (c :: q) ((List.prefix_cons_inj c).mpr hq)
      rw [surplusFrom_cons] at hcons
      omega
    have hpos := ih (by omega) hrest
    rw [surplusFrom_cons]
    omega

/-- The surplus is used up at the character behind a text, and nowhere in front of it. -/
def UsedUpAt (depth : Nat) (quotes : QuoteState) (inner : Text) (c : Char) : Prop :=
  depth + surplusFrom quotes (inner ++ [c]) = 0 ∧
    ∀ p, p <+: inner → depth + surplusFrom quotes p ≠ 0

theorem usedUpAt_nil_iff (hdepth : 1 ≤ depth) :
    UsedUpAt depth quotes [] c ↔ depth + turn quotes c = 0 := by
  simp only [UsedUpAt, List.nil_append, surplusFrom_singleton, List.prefix_nil, forall_eq,
    surplusFrom_nil, and_iff_left_iff_imp]
  omega

/-- Behind the first character the search goes on at the depth that it leads to. -/
theorem usedUpAt_cons_iff {d : Char} (hdepth : 1 ≤ depth) :
    UsedUpAt depth quotes (d :: inner) c ↔
      UsedUpAt (openParens depth quotes d) (quotes.step d) inner c := by
  have hcast := cast_openParens quotes d hdepth
  have hstep (p : Text) : depth + surplusFrom quotes (d :: p) =
      openParens depth quotes d + surplusFrom (quotes.step d) p := by
    rw [surplusFrom_cons]
    omega
  constructor
  · rintro ⟨hzero, hopen⟩
    refine ⟨by rw [← hstep, ← List.cons_append, hzero], fun p hp => ?_⟩
    rw [← hstep]
    exact hopen (d :: p) ((List.prefix_cons_inj d).mpr hp)
  · rintro ⟨hzero, hopen⟩
    refine ⟨by rw [List.cons_append, hstep, hzero], fun p hp => ?_⟩
    rcases List.prefix_cons_iff.mp hp with rfl | ⟨q, rfl, hq⟩
    · rw [surplusFrom_nil]
      omega
    · rw [hstep]
      exact hopen q hq

theorem not_usedUpAt_zero : ¬ UsedUpAt 0 quotes inner c :=
  fun h => h.2 [] List.nil_prefix (by simp)

/-- The search stops at the first character up to which the surplus is used up. -/
theorem closeFrom_eq_some_iff (hdepth : 1 ≤ depth) :
    closeFrom '(' ')' depth quotes s = some (inner, rest) ↔
      ∃ c, s = inner ++ c :: rest ∧ UsedUpAt depth quotes inner c := by
  induction s generalizing depth quotes inner with
  | nil => simp [closeFrom]
  | cons d s ih =>
    have hcast := cast_openParens quotes d hdepth
    by_cases hclose : quotes = .outside ∧ d = ')' ∧ depth ≤ 1
    · obtain ⟨rfl, rfl, hle⟩ := hclose
      obtain rfl : depth = 1 := by omega
      have hstop : closeFrom '(' ')' 1 .outside (')' :: s) = some ([], s) := rfl
      rw [hstop, Option.some.injEq, Prod.mk.injEq]
      constructor
      · rintro ⟨rfl, rfl⟩
        exact ⟨')', rfl, (usedUpAt_nil_iff hdepth).mpr rfl⟩
      · rintro ⟨c, hs, hused⟩
        cases inner with
        | nil => exact ⟨rfl, (List.cons.inj hs).2⟩
        | cons e inner =>
          obtain ⟨rfl, -⟩ := List.cons.inj hs
          exact absurd ((usedUpAt_cons_iff hdepth).mp hused) not_usedUpAt_zero
    · have hmore : 1 ≤ openParens depth quotes d := one_le_openParens hdepth hclose
      rw [closeFrom_cons hclose, Option.map_eq_some_iff]
      constructor
      · rintro ⟨⟨inner', rest'⟩, hfound, heq⟩
        obtain ⟨rfl, rfl⟩ := Prod.mk.inj heq
        obtain ⟨c, rfl, hused⟩ := (ih hmore).mp hfound
        exact ⟨c, rfl, (usedUpAt_cons_iff hdepth).mpr hused⟩
      · rintro ⟨c, hs, hused⟩
        cases inner with
        | nil =>
          -- Here the search would have stopped.
          obtain ⟨rfl, -⟩ := List.cons.inj hs
          have hzero := (usedUpAt_nil_iff hdepth).mp hused
          omega
        | cons e inner =>
          obtain ⟨rfl, rfl⟩ := List.cons.inj hs
          exact ⟨(inner, rest), (ih hmore).mpr ⟨c, rfl, (usedUpAt_cons_iff hdepth).mp hused⟩, rfl⟩

/-- Once the surplus is used up, the search has stopped. -/
theorem exists_closeFrom (hdepth : 1 ≤ depth) (hp : p <+: s)
    (hzero : depth + surplusFrom quotes p = 0) :
    ∃ inner after, closeFrom '(' ')' depth quotes s = some (inner, after) ∧
      inner ++ [')'] <+: p := by
  induction s generalizing depth quotes p with
  | nil =>
    rw [List.prefix_nil.mp hp, surplusFrom_nil] at hzero
    omega
  | cons d s ih =>
    rcases List.prefix_cons_iff.mp hp with rfl | ⟨q, rfl, hq⟩
    · rw [surplusFrom_nil] at hzero
      omega
    · have hcast := cast_openParens quotes d hdepth
      rw [surplusFrom_cons] at hzero
      by_cases hclose : quotes = .outside ∧ d = ')' ∧ depth ≤ 1
      · refine ⟨[], s, by rw [closeFrom, if_pos hclose], ?_⟩
        rw [hclose.2.1]
        exact List.prefix_append [')'] q
      · have hused : (openParens depth quotes d : Int) + surplusFrom (quotes.step d) q = 0 := by
          omega
        obtain ⟨inner, after, hfound, hprefix⟩ := ih (one_le_openParens hdepth hclose) hq hused
        refine ⟨d :: inner, after, ?_, (List.prefix_cons_inj d).mpr hprefix⟩
        rw [closeFrom_cons hclose, hfound]
        rfl

/-- What stands between a parenthesis and its partner is balanced. -/
theorem balanced_of_closeFrom (h : closeFrom '(' ')' 1 .outside s = some (inner, rest)) :
    Balanced inner := by
  obtain ⟨c, -, hzero, hopen⟩ := (closeFrom_eq_some_iff (Nat.le_refl 1)).mp h
  have hbelow : ∀ p, p <+: inner → 0 ≤ surplus p := by
    intro p hp
    have hpos := surplus_pos (Nat.le_refl 1) fun q hq => hopen q (hq.trans hp)
    change 0 < 1 + surplus p at hpos
    omega
  refine ⟨hbelow, ?_⟩
  have hle := neg_one_le_turn (inner.foldl QuoteState.step .outside) c
  have hge := hbelow inner List.prefix_rfl
  rw [surplusFrom_append, surplusFrom_singleton] at hzero
  change 1 + (surplus inner + _) = 0 at hzero
  omega

/-! ## By byte offsets -/

theorem exists_opening_iff : (Text.utf8 s)[offset]? = some '('.toUInt8 ↔
    ∃ before rest, s = before ++ '(' :: rest ∧ byteLength before = offset := by
  rw [Text.getElem?_utf8_eq_some_iff (by decide)]
  constructor
  · rintro ⟨rest, h⟩
    obtain ⟨before, rfl, hlength⟩ := Text.dropBytes?_eq_some_iff.mp h
    exact ⟨before, rest, rfl, hlength⟩
  · rintro ⟨before, rest, rfl, rfl⟩
    exact ⟨rest, Text.dropBytes?_append before _⟩

theorem matchingParen?_append (before rest : Text) :
    matchingParen? (before ++ '(' :: rest) (byteLength before) =
      (closeFrom '(' ')' 1 .outside rest).map fun (inner, _) =>
        byteLength before + 1 + byteLength inner := by
  rw [matchingParen?, Text.dropBytes?_append, Option.bind_eq_bind, Option.bind_some, closeParen?]
  cases closeFrom '(' ')' 1 .outside rest <;> rfl

theorem opens_of_matchingParen? (h : matchingParen? s offset = some close) :
    (Text.utf8 s)[offset]? = some '('.toUInt8 := by
  rw [Text.getElem?_utf8_eq_some_iff (by decide)]
  obtain ⟨rest, hrest, hclose⟩ := Option.bind_eq_some_iff.mp h
  refine ⟨rest.tail, ?_⟩
  unfold closeParen? at hclose
  split at hclose
  · exact hrest
  · cases hclose

/-- Where a parenthesis starts, the surplus through a character behind it is one more than
that of what has been read behind the parenthesis. -/
theorem surplusAt?_behind_iff {value : Int} (hn : byteLength before < n) :
    surplusAt? (before ++ '(' :: rest) (byteLength before) n = some value ↔
      ∃ inner c after, rest = inner ++ c :: after ∧ byteLength before + 1 + byteLength inner = n ∧
        1 + surplus (inner ++ [c]) = value := by
  have hone (s : Text) : surplus ('(' :: s) = 1 + surplus s := surplusFrom_cons .outside '(' s
  have hparen : '('.utf8Size = 1 := rfl
  constructor
  · intro h
    obtain ⟨front, hfront, hread⟩ := Option.bind_eq_some_iff.mp h
    obtain ⟨behind, hbehind, hread⟩ := Option.bind_eq_some_iff.mp hread
    obtain ⟨c, hc, hvalue⟩ := Option.bind_eq_some_iff.mp hread
    obtain ⟨after, rfl⟩ := List.head?_eq_some_iff.mp hc
    obtain ⟨before', more, hs, hstart, hstop⟩ := Text.slice?_eq_some_iff.mp hfront
    obtain ⟨rfl, hrest⟩ := Text.append_inj_of_byteLength hs hstart.symm
    obtain ⟨before'', hs', hlength⟩ := Text.dropBytes?_eq_some_iff.mp hbehind
    rw [hrest, ← List.append_assoc] at hs'
    obtain ⟨-, rfl⟩ := Text.append_inj_of_byteLength hs' (by rw [Text.byteLength_append]; omega)
    cases front with
    | nil =>
      rw [byteLength] at hstop
      omega
    | cons d inner =>
      obtain ⟨rfl, rfl⟩ := List.cons.inj hrest
      refine ⟨inner, c, after, rfl, ?_, ?_⟩
      · rw [byteLength, hparen] at hstop
        omega
      · rw [← hone]
        exact Option.some.inj hvalue
  · rintro ⟨inner, c, after, rfl, rfl, rfl⟩
    have hslice := Text.slice?_append before ('(' :: inner) (c :: after)
    have hdrop := Text.dropBytes?_append (before ++ '(' :: inner) (c :: after)
    rw [Text.byteLength_append, byteLength, hparen, ← Nat.add_assoc, List.append_assoc] at hdrop
    rw [byteLength, hparen, ← Nat.add_assoc] at hslice
    rw [List.cons_append] at hslice hdrop
    rw [surplusAt?, hslice, hdrop, ← hone]
    rfl

theorem isPartner_append_iff : IsPartner (before ++ '(' :: rest) (byteLength before) close ↔
    ∃ inner after, closeFrom '(' ')' 1 .outside rest = some (inner, after) ∧
      byteLength before + 1 + byteLength inner = close := by
  constructor
  · rintro ⟨-, ⟨hlt, hzero⟩, hleast⟩
    obtain ⟨inner, c, after, rfl, hclose, hsurplus⟩ := (surplusAt?_behind_iff hlt).mp hzero
    refine ⟨inner, after, ?_, hclose⟩
    refine (closeFrom_eq_some_iff (Nat.le_refl 1)).mpr ⟨c, rfl, hsurplus, ?_⟩
    rintro p ⟨more, rfl⟩ hearly
    cases p using List.reverseRecOn with
    | nil => simp at hearly
    | append_singleton front d =>
      -- A surplus that is used up in front of it would be found there.
      have hlt' : byteLength before < byteLength before + 1 + byteLength front := by omega
      have hle := hleast ⟨hlt', (surplusAt?_behind_iff hlt').mpr
        ⟨front, d, more ++ c :: after, by simp, rfl, hearly⟩⟩
      have hpos := d.utf8Size_pos
      simp only [Text.byteLength_append, byteLength] at hclose
      omega
  · rintro ⟨inner, after, hfound, rfl⟩
    obtain ⟨c, rfl, hsurplus, hopen⟩ := (closeFrom_eq_some_iff (Nat.le_refl 1)).mp hfound
    have hlt : byteLength before < byteLength before + 1 + byteLength inner := by omega
    refine ⟨exists_opening_iff.mpr ⟨before, _, rfl, rfl⟩,
      ⟨hlt, (surplusAt?_behind_iff hlt).mpr ⟨inner, c, after, rfl, rfl, hsurplus⟩⟩, ?_⟩
    rintro n ⟨hn, hzero⟩
    obtain ⟨front, d, more, heq, rfl, hearly⟩ := (surplusAt?_behind_iff hn).mp hzero
    by_contra hless
    have hprefix : front ++ [d] <+: inner :=
      Text.prefix_of_byteLength_lt heq.symm (by omega)
    exact hopen _ hprefix hearly

theorem matchingParen?_eq_some_iff : matchingParen? s offset = some close ↔
    IsPartner s offset close := by
  constructor
  · intro h
    obtain ⟨before, rest, rfl, rfl⟩ := exists_opening_iff.mp (opens_of_matchingParen? h)
    rw [matchingParen?_append] at h
    obtain ⟨⟨inner, after⟩, hfound, hclose⟩ := Option.map_eq_some_iff.mp h
    exact isPartner_append_iff.mpr ⟨inner, after, hfound, hclose⟩
  · intro h
    obtain ⟨before, rest, rfl, rfl⟩ := exists_opening_iff.mp h.opens
    obtain ⟨inner, after, hfound, hclose⟩ := isPartner_append_iff.mp h
    rw [matchingParen?_append, hfound]
    exact congrArg some hclose

theorem surplusAt?_opening (before rest : Text) :
    surplusAt? (before ++ '(' :: rest) (byteLength before) (byteLength before) = some 1 := by
  have hslice := Text.slice?_append before [] ('(' :: rest)
  rw [List.nil_append, byteLength, Nat.add_zero] at hslice
  rw [surplusAt?, hslice, Text.dropBytes?_append]
  rfl

theorem le_of_surplusAt? {value : Int} (h : surplusAt? s offset n = some value) : offset ≤ n := by
  obtain ⟨front, hfront, -⟩ := Option.bind_eq_some_iff.mp h
  obtain ⟨_, _, -, -, hstop⟩ := Text.slice?_eq_some_iff.mp hfront
  omega

/-- As long as the partner has not been read, some parenthesis is open. -/
theorem surplusAt?_pos {value : Int} (hopens : (Text.utf8 s)[offset]? = some '('.toUInt8)
    (h : surplusAt? s offset n = some value)
    (hopen : ∀ close ∈ matchingParen? s offset, n < close) : 0 < value := by
  obtain ⟨before, rest, rfl, rfl⟩ := exists_opening_iff.mp hopens
  rcases Nat.eq_or_lt_of_le (le_of_surplusAt? h) with rfl | hn
  · rw [surplusAt?_opening] at h
    obtain rfl := Option.some.inj h
    exact Int.one_pos
  · obtain ⟨read, c, more, rfl, rfl, rfl⟩ := (surplusAt?_behind_iff hn).mp h
    change 0 < ((1 : Nat) : Int) + surplusFrom .outside (read ++ [c])
    apply surplus_pos (Nat.le_refl 1)
    intro q hq hzero
    have hread : read ++ [c] <+: read ++ c :: more := ⟨more, by simp⟩
    obtain ⟨inner, after, hfound, hinner⟩ :=
      exists_closeFrom (Nat.le_refl 1) (hq.trans hread) hzero
    have hclose : byteLength before + 1 + byteLength inner ∈
        matchingParen? (before ++ '(' :: (read ++ c :: more)) (byteLength before) := by
      rw [matchingParen?_append, hfound]
      rfl
    have hlate := hopen _ hclose
    obtain ⟨between, rfl⟩ : inner <+: read := by
      have hlength := (hinner.trans hq).length_le
      apply List.prefix_of_prefix_length_le ((List.prefix_append inner _).trans (hinner.trans hq))
        (List.prefix_append read [c])
      simpa using hlength
    rw [Text.byteLength_append] at hlate
    omega

/-- The search for the partner of a parenthesis finds it wherever there is one, and nothing
elsewhere. At a byte offset that it returns there is a closing parenthesis, and what stands
between the two is balanced outside quotes. Its depth, a number that cannot be negative, is
never taken below zero: with the subtractions checked the search returns the same, and as long
as the partner has not been read, some parenthesis is open. There is no partner if no
parenthesis starts at the offset, as beyond the end of the text and inside a character. -/
theorem matchingParen?_finds_partner (s : Text) (offset : Nat) :
    (∀ close, matchingParen? s offset = some close ↔ IsPartner s offset close) ∧
    (∀ close, matchingParen? s offset = some close →
      (Text.utf8 s)[close]? = some ')'.toUInt8 ∧
        ∃ inner, Text.slice? s (offset + 1) close = some inner ∧ Balanced inner) ∧
    ((Text.utf8 s)[offset]? = some '('.toUInt8 →
      Checked.matchingParen? s offset = some (matchingParen? s offset) ∧
        ∀ n depth, surplusAt? s offset n = some depth →
          (∀ close ∈ matchingParen? s offset, n < close) → 0 < depth) ∧
    ((∀ close, ¬ IsPartner s offset close) → matchingParen? s offset = none) ∧
    (byteLength s ≤ offset ∨ Text.InsideChar s offset → matchingParen? s offset = none) := by
  have hnone : (Text.utf8 s)[offset]? ≠ some '('.toUInt8 → matchingParen? s offset = none := by
    intro hno
    apply Option.eq_none_iff_forall_ne_some.mpr
    intro close hclose
    exact hno (opens_of_matchingParen? hclose)
  have hparen : '('.utf8Size = 1 := rfl
  refine ⟨fun _ => matchingParen?_eq_some_iff, ?_, ?_, ?_, ?_⟩
  · intro close h
    obtain ⟨before, rest, rfl, rfl⟩ := exists_opening_iff.mp (opens_of_matchingParen? h)
    rw [matchingParen?_append] at h
    obtain ⟨⟨inner, after⟩, hfound, rfl⟩ := Option.map_eq_some_iff.mp h
    obtain rfl := closeFrom_eq_append hfound
    have hslice := Text.slice?_append (before ++ ['(']) inner (')' :: after)
    have hdrop := Text.dropBytes?_append (before ++ '(' :: inner) (')' :: after)
    simp only [Text.byteLength_append, byteLength, hparen, Nat.add_zero, List.append_assoc,
      List.cons_append, List.nil_append] at hslice hdrop
    rw [← Nat.add_assoc] at hdrop
    refine ⟨?_, inner, hslice, balanced_of_closeFrom hfound⟩
    exact (Text.getElem?_utf8_eq_some_iff (by decide)).mpr ⟨after, hdrop⟩
  · intro hopens
    obtain ⟨before, rest, rfl, rfl⟩ := exists_opening_iff.mp hopens
    refine ⟨?_, fun n depth h hopen => surplusAt?_pos hopens h hopen⟩
    rw [Checked.matchingParen?_append, matchingParen?_append]
  · intro h
    apply Option.eq_none_iff_forall_ne_some.mpr
    intro close hclose
    exact h close (matchingParen?_eq_some_iff.mp hclose)
  · rintro (hbeyond | hinside)
    · apply hnone
      rw [List.getElem?_eq_none (by rwa [Text.length_utf8])]
      simp
    · rw [matchingParen?, Text.dropBytes?_of_insideChar hinside]
      rfl

theorem matchingParen?_finds_partner_quoted :
    let s := "é(ü')'(x)) z".toList
    (matchingParen? s 2 = some 11 ∧ IsPartner s 2 11) ∧
    ((Text.utf8 s)[11]? = some ')'.toUInt8 ∧
      ∃ inner, Text.slice? s 3 11 = some inner ∧ Balanced inner) ∧
    ((Text.utf8 s)[2]? = some '('.toUInt8 ∧
      Checked.matchingParen? s 2 = some (matchingParen? s 2)) ∧
    (surplusAt? s 2 8 = some 2 ∧ (∀ close ∈ matchingParen? s 2, 8 < close) ∧ (0 : Int) < 2) ∧
    ((∀ close, ¬ IsPartner s 1 close) ∧ matchingParen? s 1 = none) ∧
    (Text.InsideChar s 1 ∧ matchingParen? s 1 = none) := by
  intro s
  have hfound : matchingParen? s 2 = some 11 := by decide
  have hopens : (Text.utf8 s)[2]? = some '('.toUInt8 := by decide
  have hdepth : surplusAt? s 2 8 = some 2 := by decide
  have hbefore : ∀ close ∈ matchingParen? s 2, 8 < close := by decide
  have hinside : Text.InsideChar s 1 := ⟨[], 'é', "(ü')'(x)) z".toList, by decide⟩
  have hno : ∀ close, ¬ IsPartner s 1 close := by
    intro close h
    have hbyte : (Text.utf8 s)[1]? ≠ some '('.toUInt8 := by decide
    exact hbyte h.opens
  obtain ⟨hpartner, hclosing, hchecked, -, -⟩ := matchingParen?_finds_partner s 2
  obtain ⟨-, -, -, hnone, hbeyond⟩ := matchingParen?_finds_partner s 1
  refine ⟨⟨hfound, (hpartner 11).mp hfound⟩, hclosing 11 hfound, ⟨hopens, (hchecked hopens).1⟩,
    ⟨hdepth, hbefore, (hchecked hopens).2 8 2 hdepth hbefore⟩, ⟨hno, hnone hno⟩, hinside, ?_⟩
  exact hbeyond (.inr hinside)

end PhpLint.Code
