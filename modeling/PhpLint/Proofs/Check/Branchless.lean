import Mathlib.Data.List.Infix
import PhpLint.Proofs.Check.Decisions

/-!
Functions without branches. Where a body has no word that branches and no logical operator,
all that is left to be counted are question marks with a colon behind them.
-/

namespace PhpLint.Check

variable {s : Text}

/-- No word of the text branches, and no logical operator stands in it. -/
structure Branchless (s : Text) : Prop where
  words : ∀ word ∈ Code.words s, word.map Code.foldLetter ∉
    ["if", "elseif", "for", "foreach", "while", "case", "catch"].map String.toList
  conjunction : ¬ "&&".toList <:+: s
  disjunction : ¬ "||".toList <:+: s

/-- Somewhere behind a free question mark there is a colon. -/
def MarkBeforeColon (s : Text) : Prop := ∃ u v, s = u ++ '?' :: v ∧ FreeMark u v ∧ ':' ∈ v

theorem branchCount_eq_zero_iff :
    branchCount s = 0 ↔ ∀ word ∈ Code.words s, word.map Code.foldLetter ∉ branchWords := by
  rw [branchCount, List.countP_eq_zero]
  simp [Code.foldsTo]

instance (s : Text) : Decidable (Branchless s) :=
  decidable_of_iff (branchCount s = 0 ∧ ¬ "&&".toList <:+: s ∧ ¬ "||".toList <:+: s)
    ⟨fun ⟨h, h', h''⟩ => ⟨branchCount_eq_zero_iff.mp h, h', h''⟩,
      fun ⟨h, h', h''⟩ => ⟨branchCount_eq_zero_iff.mpr h, h', h''⟩⟩

theorem ternaryCount_dropNullOperators_eq_zero_iff :
    ternaryCount false (dropNullOperators s) = 0 ↔ ¬ MarkBeforeColon s := by
  rw [ternaryCount_eq_zero_iff, MarkBeforeColon]
  simp only [Bool.false_eq_true, false_implies, true_and]
  constructor
  · rintro h ⟨u, v, hs, hfree, hv⟩
    obtain ⟨front, back, hdrop, rfl⟩ :=
      (marks_dropNullOperators [] (fun _ => rfl) _).mpr ⟨u, v, hs, hfree, rfl⟩
    exact h front _ hdrop ((mem_dropNullOperators (by decide)).mpr hv)
  · intro h u v hdrop hv
    obtain ⟨front, back, hs, hfree, rfl⟩ :=
      (marks_dropNullOperators [] (fun _ => rfl) v).mp ⟨u, v, hdrop, rfl⟩
    exact h ⟨front, back, hs, hfree, (mem_dropNullOperators (by decide)).mp hv⟩

theorem Branchless.decisionCount_eq_zero_iff (h : Branchless s) :
    decisionCount s = 0 ↔ ¬ MarkBeforeColon s := by
  have hbranch : branchCount (dropNullOperators s) = 0 := by
    rw [branchCount_eq_zero_iff, words_dropNullOperators]
    exact h.words
  have hlogical : logicalCount (dropNullOperators s) = 0 :=
    logicalCount_eq_zero
      (fun hwithin => h.conjunction (infix_of_dropNullOperators (by decide) hwithin))
      (fun hwithin => h.disjunction (infix_of_dropNullOperators (by decide) hwithin))
  rw [← ternaryCount_dropNullOperators_eq_zero_iff, decisionCount, hbranch, hlogical]
  simp

/-- A function whose body has no word that branches and no logical operator has complexity one
exactly if on no line of it a question mark that belongs to no operator on null has a colon
behind it. -/
theorem complexity_eq_one_iff (lines : List Text) (start : Nat)
    (h : ∀ entry ∈ (Body.scan lines start).code, Branchless entry.2) :
    complexity lines (start + 1) = 1 ↔
      ∀ entry ∈ (Body.scan lines start).code, ∀ u v, entry.2 = u ++ '?' :: v → FreeMark u v →
        ':' ∉ v := by
  have hsum : complexity lines (start + 1) = 1 ↔
      ∀ entry ∈ (Body.scan lines start).code, decisionCount entry.2 = 0 := by
    rw [complexity_eq, Nat.add_eq_left, List.sum_eq_zero_iff_forall_eq_nat]
    exact List.forall_mem_map
  rw [hsum]
  refine forall₂_congr fun entry hentry => ?_
  rw [(h entry hentry).decisionCount_eq_zero_iff, MarkBeforeColon]
  push Not
  rfl

/-- A nullable parameter, a nullable return type and the three operators on null. -/
def nullableLines : List Text :=
  ["function f(?int $x): ?string \x7b", "  $y ??= $x ?? $z?->name;",
    "  $g = fn (?int $v) => $v;", "\x7d"].map String.toList

theorem complexity_eq_one_iff_nullable :
    (∀ entry ∈ (Body.scan nullableLines 0).code, Branchless entry.2) ∧
      ∀ entry ∈ (Body.scan nullableLines 0).code, ∀ u v, entry.2 = u ++ '?' :: v →
        FreeMark u v → ':' ∉ v := by
  have hbranchless : ∀ entry ∈ (Body.scan nullableLines 0).code, Branchless entry.2 := by
    decide +kernel
  exact ⟨hbranchless, (complexity_eq_one_iff nullableLines 0 hbranchless).mp (by decide +kernel)⟩

/-- A closure with a nullable parameter in front of the colon of its return type. -/
def closureLines : List Text :=
  ["function f() \x7b", "  $g = function (?int $x): int \x7b return $x; \x7d;", "\x7d"].map
    String.toList

/-- The only question mark of the body starts the type of a parameter, and yet it is counted
as a ternary operator. -/
theorem complexity_of_nullable_parameter :
    (∀ entry ∈ (Body.scan closureLines 0).code, Branchless entry.2) ∧
      (Body.scan closureLines 0).code.map Prod.snd = [[],
        "  $g = function (".toList ++ '?' :: "int $x): int \x7b return $x; \x7d;".toList, []] ∧
      '?' ∉ "  $g = function (".toList ∧ '?' ∉ "int $x): int \x7b return $x; \x7d;".toList ∧
      complexity closureLines 1 = 2 := by
  decide +kernel

end PhpLint.Check
