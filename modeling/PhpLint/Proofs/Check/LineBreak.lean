import PhpLint.Proofs.Check.Decisions
import PhpLint.Proofs.Code.BodyText
import PhpLint.Proofs.Code.LineBreak

/-!
The complexity of a function and the layout of its lines. A line break that stands for a blank
takes from the complexity the decisions that it hides, and nothing else: the logical operator
at the end of the first line, and the ternary operator that it divides.
-/

namespace PhpLint

namespace Body

variable {k k' : Counters} {s t u : Text}

/-- The scan of a line goes on in its second part from where the first one leaves it. -/
theorem scanLine_append_eq (k : Counters) (s t : Text) :
    scanLine k (s ++ t) =
      match scanLine k s with
      | .bodyless => .bodyless
      | .closed text => .closed text
      | .more k' text => (scanLine k' t).keepAll text := by
  induction s generalizing k with
  | nil => rfl
  | cons c s ih =>
    rw [List.cons_append, scanLine, scanLine]
    split
    · rfl
    · split
      · rfl
      · rw [ih]
        cases hs : scanLine (k.step c) s <;> cases k.opened <;> rfl

/-- A line over which the scan goes on is kept from some character on, or not at all. -/
theorem scanLine_kept (h : scanLine k s = .more k' u) :
    u <:+ s ∧ (k.opened = true → k'.opened = true ∧ u = s) ∧ (k'.opened = false → u = []) := by
  induction s generalizing k u with
  | nil =>
    obtain ⟨rfl, rfl⟩ := LineResult.more.inj h
    exact ⟨List.suffix_refl _, fun hopened => ⟨hopened, rfl⟩, fun _ => rfl⟩
  | cons c s ih =>
    rw [scanLine] at h
    split at h
    · cases h
    · split at h
      · cases h
      · cases hopened : k.opened with
        | true =>
          have hstep : (k.step c).opened = true := by rw [Counters.step_eq, hopened]; rfl
          simp only [hopened, if_true] at h
          obtain ⟨u', hrest⟩ := LineResult.keep_eq_more h
          obtain ⟨hk, rfl⟩ := (ih hrest).2.1 hstep
          rw [hrest, LineResult.keep, LineResult.more.injEq] at h
          exact ⟨h.2 ▸ List.suffix_refl _, fun _ => ⟨hk, h.2.symm⟩, by simp [hk]⟩
        | false =>
          simp only [hopened, Bool.false_eq_true, if_false] at h
          obtain ⟨hsuffix, -, hnone⟩ := ih h
          exact ⟨hsuffix.trans (List.suffix_cons c s), by simp, hnone⟩

theorem scanLine_ne_bodyless (h : k.opened = true) (s : Text) : scanLine k s ≠ .bodyless := by
  induction s generalizing k with
  | nil => simp [scanLine]
  | cons c s ih =>
    have hstep : (k.step c).opened = true := by rw [Counters.step_eq, h]; rfl
    have hs := ih hstep
    rw [scanLine, if_neg (by simp [h])]
    split
    · simp
    · cases hrest : scanLine (k.step c) s <;> simp_all [LineResult.keep]

/-- The entries that a line adds to those of the lines behind it. -/
theorem code_of_bodyless (number : Nat) (h : scanLine k s = .bodyless) (rest : List Text) :
    (scanCodes number k (s :: rest)).2.1 = [] := by
  rw [scanCodes, h]

theorem code_of_closed (number : Nat) (h : scanLine k s = .closed u) (rest : List Text) :
    (scanCodes number k (s :: rest)).2.1 = [(number, u)] := by
  rw [scanCodes, h]

theorem code_of_opened (number : Nat) (h : scanLine k s = .more k' u) (hopened : k'.opened = true)
    (rest : List Text) :
    (scanCodes number k (s :: rest)).2.1 = (number, u) :: (scanCodes (number + 1) k' rest).2.1 := by
  simp [scanCodes, h, hopened]

theorem code_of_unopened (number : Nat) (h : scanLine k s = .more k' u)
    (hopened : k'.opened = false) (rest : List Text) :
    (scanCodes number k (s :: rest)).2.1 = (scanCodes (number + 1) k' rest).2.1 := by
  simp [scanCodes, h, hopened]

end Body

namespace Check

open Body

/-- The decisions on lines of a body. -/
def decisions (code : List (Nat × Text)) : Nat :=
  (code.map fun entry => decisionCount entry.2).sum

/-- The decisions that the break between a line of a body and the next one hides. -/
def cut (code : List (Nat × Text)) (line : Nat) : Nat :=
  match code.lookup line, code.lookup (line + 1) with
  | some p, some q => hidden p q
  | _, _ => 0

@[simp] theorem decisions_nil : decisions [] = 0 := rfl

@[simp] theorem decisions_cons (entry : Nat × Text) (code : List (Nat × Text)) :
    decisions (entry :: code) = decisionCount entry.2 + decisions code := by
  simp [decisions]

theorem cut_cons {number line : Nat} (h : number < line) (text : Text) (code : List (Nat × Text)) :
    cut ((number, text) :: code) line = cut code line := by
  have hline : (line == number) = false := beq_eq_false_iff_ne.mpr (by omega)
  have hnext : (line + 1 == number) = false := beq_eq_false_iff_ne.mpr (by omega)
  simp [cut, List.lookup_cons, hline, hnext]

theorem cut_of_lookup {code : List (Nat × Text)} {line : Nat} (h : code.lookup line = none) :
    cut code line = 0 := by
  simp [cut, h]

/-- The entries of a scan from a line on have the numbers from that line on. -/
theorem lookup_scanCodes {line number : Nat} (h : line < number) (k : Counters)
    (codes : List Text) : (scanCodes number k codes).2.1.lookup line = none := by
  induction codes generalizing number k with
  | nil => rfl
  | cons code rest ih =>
    have hline : (line == number) = false := beq_eq_false_iff_ne.mpr (by omega)
    cases hcode : scanLine k code with
    | bodyless => rw [code_of_bodyless number hcode, List.lookup_nil]
    | closed text => rw [code_of_closed number hcode, List.lookup_cons, hline, List.lookup_nil]
    | more k' text =>
      have hrest := ih (Nat.lt_succ_of_lt h) k'
      cases hopened : k'.opened with
      | true => rw [code_of_opened number hcode hopened, List.lookup_cons, hline, hrest]
      | false => rw [code_of_unopened number hcode hopened, hrest]

/-- How lines are numbered has no influence on the decisions. -/
theorem decisions_scanCodes (number other : Nat) (k : Counters) (codes : List Text) :
    decisions (scanCodes number k codes).2.1 = decisions (scanCodes other k codes).2.1 := by
  induction codes generalizing number other k with
  | nil => rfl
  | cons code rest ih =>
    cases hcode : scanLine k code with
    | bodyless => rw [code_of_bodyless number hcode, code_of_bodyless other hcode]
    | closed text =>
      rw [code_of_closed number hcode, code_of_closed other hcode, decisions_cons, decisions_cons]
    | more k' text =>
      have hrest := ih (number + 1) (other + 1) k'
      cases hopened : k'.opened with
      | true =>
        rw [code_of_opened number hcode hopened, code_of_opened other hcode hopened,
          decisions_cons, decisions_cons, hrest]
      | false =>
        rw [code_of_unopened number hcode hopened, code_of_unopened other hcode hopened, hrest]

/-- What a seam between two parts of a line shows. -/
theorem decisionCount_seam {p glue u : Text} (hseam : Scrubber.Seam p glue) (hu : u <:+ p)
    (t : Text) :
    decisionCount (u ++ glue ++ t) = decisionCount u + decisionCount t + hidden u t := by
  have hempty : decisionCount ([] ++ [] ++ t) =
      decisionCount [] + decisionCount t + hidden [] t := by
    have hlogical : ¬ EndsInLogical [] := by decide
    have hopen : ¬ TernaryOpen [] := by decide
    have hnone : decisionCount [] = 0 := rfl
    simp [hidden, hlogical, hopen, hnone]
  rcases hseam with rfl | ⟨rfl, rfl | ⟨front, q, hq, rfl⟩⟩
  · rw [List.append_assoc, List.singleton_append, decisionCount_blank]
  · rw [List.suffix_nil.mp hu]
    exact hempty
  · rcases List.suffix_concat_iff.mp hu with rfl | ⟨v, rfl, -⟩
    · exact hempty
    · rw [List.append_nil, List.append_assoc, List.singleton_append, decisionCount_quote hq]

/-- A blank or nothing in front of a line is kept with the line. -/
theorem scanLine_seam {p glue : Text} (hseam : Scrubber.Seam p glue) (k : Counters) (q : Text) :
    scanLine k (glue ++ q) =
      (scanLine k q).keepAll (if k.opened then glue else []) := by
  rcases hseam with rfl | ⟨rfl, -⟩
  · rw [List.singleton_append, scanLine, if_neg (by simp), if_neg (by simp)]
    cases k.opened <;> rfl
  · cases k.opened <;> rfl

theorem cut_single (line : Nat) (text : Text) : cut [(line, text)] line = 0 := by
  have hnext : (line + 1 == line) = false := beq_eq_false_iff_ne.mpr (by omega)
  simp [cut, List.lookup_cons, hnext]

theorem cut_pair {line : Nat} (u t : Text) (code : List (Nat × Text)) :
    cut ((line, u) :: (line + 1, t) :: code) line = hidden u t := by
  have hnext : (line + 1 == line) = false := beq_eq_false_iff_ne.mpr (by omega)
  simp [cut, List.lookup_cons, hnext]

/-- Two lines of code and the line made of them. -/
theorem decisions_scanCodes_seam {p glue : Text} (hseam : Scrubber.Seam p glue) (number : Nat)
    (k : Counters) (q : Text) (rest : List Text) :
    decisions (scanCodes number k ((p ++ glue ++ q) :: rest)).2.1 =
      decisions (scanCodes number k (p :: q :: rest)).2.1 +
        cut (scanCodes number k (p :: q :: rest)).2.1 number := by
  have hwhole := scanLine_append_eq k p (glue ++ q)
  rw [← List.append_assoc] at hwhole
  cases hp : scanLine k p with
  | bodyless =>
    rw [hp] at hwhole
    rw [code_of_bodyless number hwhole, code_of_bodyless number hp]
    rfl
  | closed text =>
    rw [hp] at hwhole
    rw [code_of_closed number hwhole, code_of_closed number hp, cut_single, Nat.add_zero]
  | more k' u =>
    obtain ⟨hsuffix, -, hnone⟩ := scanLine_kept hp
    simp only [hp, scanLine_seam hseam] at hwhole
    cases hopened : k'.opened with
    | true =>
      rw [code_of_opened number hp hopened]
      simp only [hopened, if_true] at hwhole
      cases hq : scanLine k' q with
      | bodyless => exact absurd hq (scanLine_ne_bodyless hopened q)
      | closed t =>
        rw [hq, LineResult.keepAll_closed, LineResult.keepAll_closed, ← List.append_assoc] at hwhole
        rw [code_of_closed number hwhole, code_of_closed (number + 1) hq, cut_pair]
        simp only [decisions_cons, decisions_nil, decisionCount_seam hseam hsuffix]
        omega
      | more k'' t =>
        obtain ⟨hmore, -⟩ := (scanLine_kept hq).2.1 hopened
        rw [hq, LineResult.keepAll_more, LineResult.keepAll_more, ← List.append_assoc] at hwhole
        rw [code_of_opened number hwhole hmore, code_of_opened (number + 1) hq hmore, cut_pair]
        simp only [decisions_cons, decisionCount_seam hseam hsuffix,
          decisions_scanCodes (number + 1) (number + 1 + 1)]
        omega
    | false =>
      -- In front of the body nothing is kept, of either line.
      obtain rfl := hnone hopened
      have hcut : cut (scanCodes (number + 1) k' (q :: rest)).2.1 number = 0 :=
        cut_of_lookup (lookup_scanCodes (Nat.lt_succ_self number) k' _)
      have hline : scanLine k (p ++ glue ++ q) = scanLine k' q := by
        simpa [hopened, LineResult.keepAll] using hwhole
      have hsame : (scanCodes number k ((p ++ glue ++ q) :: rest)).2.1 =
          (scanCodes number k' (q :: rest)).2.1 := by
        rw [scanCodes, scanCodes, hline]
      rw [code_of_unopened number hp hopened, hcut, hsame, Nat.add_zero]
      exact decisions_scanCodes number (number + 1) k' (q :: rest)

/-- The same behind other lines. -/
theorem decisions_scanCodes_append {p glue : Text} (hseam : Scrubber.Seam p glue) (number : Nat)
    (k : Counters) (front : List Text) (q : Text) (rest : List Text) :
    decisions (scanCodes number k (front ++ (p ++ glue ++ q) :: rest)).2.1 =
      decisions (scanCodes number k (front ++ p :: q :: rest)).2.1 +
        cut (scanCodes number k (front ++ p :: q :: rest)).2.1 (number + front.length) := by
  induction front generalizing number k with
  | nil => exact decisions_scanCodes_seam hseam number k q rest
  | cons line front ih =>
    have hnumber : number + (line :: front).length = number + 1 + front.length := by
      simp only [List.length_cons]
      omega
    have hlt : number < number + 1 + front.length := by omega
    rw [List.cons_append, List.cons_append, hnumber]
    cases hline : scanLine k line with
    | bodyless =>
      rw [code_of_bodyless number hline, code_of_bodyless number hline]
      rfl
    | closed text =>
      rw [code_of_closed number hline, code_of_closed number hline, cut_cons hlt]
      rfl
    | more k' text =>
      have hmore := ih (number + 1) k'
      cases hopened : k'.opened with
      | true =>
        rw [code_of_opened number hline hopened, code_of_opened number hline hopened,
          cut_cons hlt, decisions_cons, decisions_cons, hmore]
        omega
      | false =>
        rw [code_of_unopened number hline hopened, code_of_unopened number hline hopened, hmore]

theorem code_scan (lines : List Text) (start : Nat) :
    (Body.scan lines start).code = (scanCodes start {} (codeLines (lines.drop start))).2.1 := by
  rw [scan_eq]
  rfl

theorem hidden_eq_zero_iff {s t : Text} :
    hidden s t = 0 ↔ ¬ EndsInLogical s ∧ ¬ (TernaryOpen s ∧ ColonFirst t) := by
  rw [hidden, Nat.add_eq_zero_iff]
  simp

theorem cut_eq_zero_iff {code : List (Nat × Text)} {line : Nat} :
    cut code line = 0 ↔ ∀ p q, code.lookup line = some p → code.lookup (line + 1) = some q →
      ¬ EndsInLogical p ∧ ¬ (TernaryOpen p ∧ ColonFirst q) := by
  unfold cut
  split
  · rename_i p q hp hq
    rw [hidden_eq_zero_iff, hp, hq]
    constructor
    · rintro h _ _ ⟨⟩ ⟨⟩
      exact h
    · exact fun h => h p q rfl rfl
  · rename_i hnone
    exact ⟨fun _ p q hp hq => (hnone p q hp hq).elim, fun _ => rfl⟩

/-- A blank in the place of a line break, wherever a blank can stand for it, adds to the
complexity of a function that is declared in front of it the decisions that the break hides;
the complexity stays the same exactly if no logical operator ends the part of the body in
front of the break and no ternary operator has its question mark there and its colon behind. -/
theorem complexity_blank (before after : List Text) (a b : Text) (start : Nat)
    (hstart : start ≤ before.length) (hjoin : Lexer.Joinable (before.drop start) a b) :
    complexity (before ++ (a ++ ' ' :: b) :: after) (start + 1) =
        complexity (before ++ a :: b :: after) (start + 1) +
          cut (Body.scan (before ++ a :: b :: after) start).code before.length ∧
      (complexity (before ++ (a ++ ' ' :: b) :: after) (start + 1) =
          complexity (before ++ a :: b :: after) (start + 1) ↔
        ∀ p q, (Body.scan (before ++ a :: b :: after) start).code.lookup before.length = some p →
          (Body.scan (before ++ a :: b :: after) start).code.lookup (before.length + 1) = some q →
            ¬ EndsInLogical p ∧ ¬ (TernaryOpen p ∧ ColonFirst q)) := by
  have hsum : complexity (before ++ (a ++ ' ' :: b) :: after) (start + 1) =
      complexity (before ++ a :: b :: after) (start + 1) +
        cut (Body.scan (before ++ a :: b :: after) start).code before.length := by
    obtain ⟨first, p, glue, q, rest, hlength, hseam, hwhole, hbroken⟩ := hjoin.codes after
    have hline : start + first.length = before.length := by
      rw [hlength, List.length_drop]
      omega
    have hdecisions := decisions_scanCodes_append hseam start {} first q rest
    rw [complexity_eq, complexity_eq, code_scan, code_scan,
      List.drop_append_of_le_length hstart, List.drop_append_of_le_length hstart, hwhole, hbroken,
      ← hline]
    simp only [decisions] at hdecisions
    omega
  refine ⟨hsum, ?_⟩
  rw [hsum, Nat.add_eq_left, cut_eq_zero_iff]

theorem joinable_conjunction :
    Lexer.Joinable ["function f($a, $b) \x7b".toList] "  return $a &&".toList "$b;".toList :=
  Lexer.Joinable.of_code (by decide +kernel) fun ⟨_, _, _, _, hlabel⟩ => absurd hlabel (by decide)

/-- The operator at the end of the line is not counted, the blank behind it would have it
counted. -/
theorem complexity_blank_conjunction :
    0 ≤ 1 ∧ Lexer.Joinable ["function f($a, $b) \x7b".toList] "  return $a &&".toList "$b;".toList ∧
      complexity (["function f($a, $b) \x7b", "  return $a && $b;", "\x7d"].map String.toList) 1 =
        complexity (["function f($a, $b) \x7b", "  return $a &&", "$b;", "\x7d"].map
          String.toList) 1 + 1 := by
  refine ⟨by decide, joinable_conjunction, ?_⟩
  obtain ⟨hsum, -⟩ := complexity_blank ["function f($a, $b) \x7b".toList] ["\x7d".toList]
    "  return $a &&".toList "$b;".toList 0 (by decide) joinable_conjunction
  exact hsum

/-- A body that ends on its last line, and a blank of its code that divides a ternary operator:
with a line break in its place, the function counts as one without a branch. -/
theorem complexity_of_cut_ternary :
    (Body.scan (["function f($a) \x7b", "  return $a ? 1 : 2;", "\x7d"].map String.toList) 0).code =
        [(0, []), (1, "  return $a ? 1 : 2;".toList), (2, [])] ∧
      complexity (["function f($a) \x7b", "  return $a ? 1 : 2;", "\x7d"].map String.toList) 1 = 2 ∧
      complexity (["function f($a) \x7b", "  return $a ?", "1 : 2;", "\x7d"].map
        String.toList) 1 = 1 := by
  decide +kernel

end Check

end PhpLint
