import PhpLint.Text.Basic

/-!
Matching a pattern from its end. For a list to be matched, `Ends` tells of every end
of it, the longest first, whether what is left of a pattern accepts that end. A part of
a pattern turns the ends behind it into the ends in front of it in one pass, so the work
is the length of the list times the length of the pattern, however many ways there are
to match. The lemmas say which ends each pass accepts.
-/

namespace PhpLint

/-- For every end of a list, the longest first, whether it is accepted. -/
abbrev Ends := List Bool

namespace Ends

variable {α : Type}

/-- The ends of a list that pass a test. -/
def passing (test : List α → Bool) : List α → Ends
  | [] => [test []]
  | a :: s => test (a :: s) :: passing test s

/-- Whether the whole list is accepted. -/
def whole (ends : Ends) : Bool := ends.headD false

/-- One element with the property, and an accepted end behind it. -/
def one (p : α → Bool) : List α → Ends → Ends
  | a :: s, _ :: ends => (p a && whole ends) :: one p s ends
  | _, _ => [false]

/-- Any number of elements with the property, and an accepted end behind them. -/
def many (p : α → Bool) : List α → Ends → Ends
  | a :: s, here :: ends =>
    let later := many p s ends
    (here || (p a && whole later)) :: later
  | _, ends => ends

/-- Any start that ends in an element with the property, and an accepted end behind it. -/
def past (p : α → Bool) (s : List α) (ends : Ends) : Ends :=
  many (fun _ => true) s (one p s ends)

/-- What either of two accepts. -/
def either (a b : Ends) : Ends := List.zipWith or a b

@[simp]
theorem whole_passing (test : List α → Bool) (s : List α) : whole (passing test s) = test s := by
  cases s <;> rfl

/-- The test of one element with a property and a tested end behind it. -/
def oneTest (p : α → Bool) (test : List α → Bool) : List α → Bool
  | [] => false
  | a :: s => p a && test s

theorem one_passing (p : α → Bool) (test : List α → Bool) (s : List α) :
    one p s (passing test s) = passing (oneTest p test) s := by
  induction s with
  | nil => rfl
  | cons a s ih => simp [one, passing, oneTest, ih]

/-- The test of any number of elements with a property and a tested end behind them. -/
def manyTest (p : α → Bool) (test : List α → Bool) : List α → Bool
  | [] => test []
  | a :: s => test (a :: s) || (p a && manyTest p test s)

theorem many_passing (p : α → Bool) (test : List α → Bool) (s : List α) :
    many p s (passing test s) = passing (manyTest p test) s := by
  induction s with
  | nil => rfl
  | cons a s ih => simp [many, passing, manyTest, ih]

theorem manyTest_eq_true_iff (p : α → Bool) (test : List α → Bool) (s : List α) :
    manyTest p test s = true ↔ ∃ front back, s = front ++ back ∧ front.all p ∧ test back := by
  induction s with
  | nil =>
    constructor
    · intro h
      exact ⟨[], [], rfl, rfl, h⟩
    · rintro ⟨front, back, hs, -, hback⟩
      rw [(List.nil_eq_append_iff.1 hs).2] at hback
      exact hback
  | cons a s ih =>
    rw [manyTest, Bool.or_eq_true, Bool.and_eq_true, ih]
    constructor
    · rintro (h | ⟨ha, front, back, rfl, hfront, hback⟩)
      · exact ⟨[], a :: s, rfl, rfl, h⟩
      · exact ⟨a :: front, back, rfl, by simp [ha, hfront], hback⟩
    · rintro ⟨front, back, hs, hfront, hback⟩
      cases front with
      | nil => exact .inl (by simpa [hs] using hback)
      | cons b front =>
        obtain ⟨rfl, rfl⟩ := List.cons.inj hs
        rw [List.all_cons, Bool.and_eq_true] at hfront
        exact .inr ⟨hfront.1, front, back, rfl, hfront.2, hback⟩

theorem either_passing (test other : List α → Bool) (s : List α) :
    either (passing test s) (passing other s) = passing (fun t => test t || other t) s := by
  induction s with
  | nil => rfl
  | cons a s ih =>
    simp only [either, passing, List.zipWith_cons_cons, List.cons.injEq, true_and]
    exact ih

end Ends

end PhpLint
